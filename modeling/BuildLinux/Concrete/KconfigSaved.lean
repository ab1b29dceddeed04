/-
A saved configuration is read back as the same configuration.

The values that have been calculated solve the equations also for the settings
that are read from their `.config` file: a symbol that the user sees is set to its
value, and a symbol that the user does not see has its value in any case.
-/

import BuildLinux.Concrete.KconfigGuarantees
import BuildLinux.Concrete.KconfigSettings
import BuildLinux.Concrete.KconfigWriting

namespace BuildLinux.Concrete.KconfigSaved

open CStrings NumberText KconfigExpr KconfigConditions KconfigCalculation KconfigValues
  KconfigEquations KconfigMemo KconfigSolution KconfigGuarantees KconfigFile KconfigReread
  KconfigSettings KconfigWriting

variable {entry : Type}

/-! ### Menus and values -/

/-- What the parser and `menu_finalize` leave: symbols with prompts are in the menus, choice values
are switches without defaults, and the mode of a choice is the upper bound of their prompts. -/
structure Finalized (config : Config entry) (names : Names config) (menu : Menu entry) : Prop where
  listed : ∀ index ∈ menu.symbols, ¬IsChoice config index → names.listed index = true
  prompted : ∀ index, ¬IsChoice config index → config.prompts index ≠ [] →
    index ∈ menu.symbols ∧ config.auto index = false
  titles : ∀ text ∈ menu.titles, '\n' ∉ text ∧ ¬configPrefix <+: text
  switches : ∀ value, IsChoiceValue config value → KconfigEquations.IsSwitch config value
  noDefaults : ∀ value, IsChoiceValue config value → config.defaults value = []
  bounded : ∀ value choice, config.choiceOf value = some choice →
    ∀ prompt ∈ config.prompts value, ∀ values : Values entry,
      condition config.table values prompt ≤ values.tri choice
  whole : ∀ value choice, config.choiceOf value = some choice →
    config.table.type choice = .tristate → config.table.type value ≠ .tristate →
    ∀ prompt ∈ config.prompts value, ∀ values : Values entry, values.tri choice ≠ .yes →
      condition config.table values prompt = .no

/-- What a file with these symbols can tell: their texts are lines and their numbers are numbers,
ranges are ranges, the default of a new symbol is not above its prompt, which would cut it when it
is read, and the mode of a choice is that of its values, from which it is read. -/
structure Storable [DecidableEq entry] (config : Config entry) (symbols : List entry)
    (defUser : entry → Bool) (outcomes : Outcomes entry) : Prop where
  readable : ∀ index ∈ symbols, Readable config (outcomes.values config) index
  ordered : ∀ index ∈ symbols, ∀ base left right visible,
    rangeBase (config.table.type index) = some base →
    firstMet config (outcomes.values config) (config.ranges index) =
      some ((left, right), visible) →
    rangeBound config (outcomes.values config) base left ≤
        rangeBound config (outcomes.values config) base right ∧
      (config.table.type index = .hex →
        0 ≤ rangeBound config (outcomes.values config) base left)
  within : ∀ index, KconfigEquations.IsSwitch config index → ¬IsChoice config index →
    ¬IsChoiceValue config index → defUser index = false → (outcomes index).visible ≠ .no →
    let new := (defaultValue config (outcomes.values config) index).or (outcomes index).implied
    new ≤ (outcomes index).visible ∨ new ≤ (outcomes index).revDep
  mode : ∀ choice, IsChoice config choice → (outcomes choice).tri = .mod →
    (outcomes choice).revDep = .mod ∨
      ∃ value, config.choiceOf value = some choice ∧ (outcomes value).tri = .mod
  unset : ∀ choice, IsChoice config choice → (outcomes choice).tri = .no →
    (outcomes choice).revDep ≠ .mod

/-! ### Tristates -/

section Tristates

theorem or_le {left right bound : Tristate} (leftBelow : left ≤ bound) (rightBelow : right ≤ bound) :
    left.or right ≤ bound := by
  unfold Tristate.or
  split
  · exact leftBelow
  · exact rightBelow

theorem and_le_left (left right : Tristate) : left.and right ≤ left := by
  cases left <;> cases right <;> decide

theorem and_le_right (left right : Tristate) : left.and right ≤ right := by
  cases left <;> cases right <;> decide

theorem le_no {value : Tristate} (below : value ≤ .no) : value = .no := by
  cases value with
  | no => rfl
  | mod => exact absurd below (by decide)
  | yes => exact absurd below (by decide)

theorem yes_le {value : Tristate} (above : .yes ≤ value) : value = .yes := by
  cases value with
  | no => exact absurd above (by decide)
  | mod => exact absurd above (by decide)
  | yes => rfl

/-- A value that a prompt or a selection allows is calculated again from itself. -/
theorem selectedValue_again {type : SymbolType} {implied revDep value visible : Tristate}
    (allowed : value ≤ visible ∨ value ≤ revDep) :
    selectedValue type implied revDep ((selectedValue type implied revDep value).and visible) =
      selectedValue type implied revDep value := by
  unfold selectedValue
  by_cases raised : type = .boolean ∨ implied = .yes
  · simp only [raised, and_true]
    cases visible <;> cases revDep <;> cases value <;>
      first | rfl | exact absurd allowed (by decide)
  · simp only [raised, and_false, if_false]
    cases visible <;> cases revDep <;> cases value <;>
      first | rfl | exact absurd allowed (by decide)

theorem selectedValue_mono {type : SymbolType} {implied revDep first second : Tristate}
    (below : first ≤ second) :
    selectedValue type implied revDep first ≤ selectedValue type implied revDep second := by
  unfold selectedValue
  by_cases raised : type = .boolean ∨ implied = .yes
  · simp only [raised, and_true]
    cases revDep <;> cases first <;> cases second <;>
      first | decide | exact absurd below (by decide)
  · simp only [raised, and_false, if_false]
    cases revDep <;> cases first <;> cases second <;>
      first | decide | exact absurd below (by decide)

end Tristates

/-! ### The values of a choice -/

section Members

variable [DecidableEq entry] {config : Config entry} {user : User config} {defUser : entry → Bool}
  {outcomes : Outcomes entry} {names : Names config} {menu : Menu entry} {index : entry}
  (solves : Solves config user defUser outcomes)

include solves

theorem visible_eq (hasVisibility : HasVisibility config index) :
    (outcomes index).visible = visibleIn config (outcomes.values config)
      ((config.choiceOf index).map (outcomes.values config).tri) index := by
  rw [solves index]
  exact outcome_visible hasVisibility

theorem prompts_of_visible (hasVisibility : HasVisibility config index)
    (visible : (outcomes index).visible ≠ .no) : config.prompts index ≠ [] := by
  intro none
  refine visible ?_
  rw [visible_eq solves hasVisibility]
  unfold visibleIn
  rw [none]
  rfl

theorem plain_tri (noSwitch : ¬KconfigEquations.IsSwitch config index) :
    (outcomes index).tri = .no := by
  rw [solves index]
  by_cases hasVisibility : HasVisibility config index
  · rw [outcome_text (hasVisibility.split.resolve_left noSwitch)]
  · rw [outcome_rest hasVisibility]

theorem outcome_seen (isSwitch : KconfigEquations.IsSwitch config index) (others : User config)
    (flags : entry → Bool) :
    let tri := switchValue config others flags outcomes index (outcomes index).visible
      (outcomes index).revDep (outcomes index).implied
    let dirDep := if IsChoiceValue config index then .no
      else directIn config (outcomes.values config) index
    outcome config others flags outcomes index =
      match config.choiceValues index with
      | none => ⟨tri, "n".toList, none, (outcomes index).visible, dirDep, (outcomes index).revDep,
          (outcomes index).implied⟩
      | some listed =>
          let chosen := if tri = .yes then picked config others (outcomes.values config) index listed
            else none
          ⟨if tri = .yes ∧ chosen = none then .no else tri, "n".toList, chosen,
            (outcomes index).visible, dirDep, (outcomes index).revDep,
            (outcomes index).implied⟩ := by
  have visible := visible_eq solves isSwitch.hasVisibility
  have conditions : (outcome config user defUser outcomes index).revDep =
        reverseIn config (outcomes.values config) index ∧
      (outcome config user defUser outcomes index).implied =
        impliedIn config (outcomes.values config) index :=
    outcome_conditions isSwitch.hasVisibility
  rw [← solves index] at conditions
  dsimp only
  rw [visible, conditions.1, conditions.2]
  exact outcome_switch isSwitch

theorem simple_tri (isSwitch : KconfigEquations.IsSwitch config index)
    (simple : config.choiceValues index = none) :
    (outcomes index).tri = switchValue config user defUser outcomes index (outcomes index).visible
      (outcomes index).revDep (outcomes index).implied := by
  have result := (solves index).trans (outcome_seen solves isSwitch user defUser)
  dsimp only at result
  rw [simple] at result
  exact congrArg Outcome.tri result

theorem member_unselected (isValue : IsChoiceValue config index)
    (hasVisibility : HasVisibility config index) :
    (outcomes index).revDep = .no ∧ (outcomes index).implied = .no := by
  rw [solves index, (outcome_conditions hasVisibility).1, (outcome_conditions hasVisibility).2]
  exact ⟨if_pos isValue, if_pos isValue⟩

omit solves [DecidableEq entry] in
theorem wholeVisible_mod {visible : Tristate} (isMod : wholeVisible config index visible = .mod) :
    config.table.type index = .tristate ∧ config.modules ≠ .no := by
  unfold wholeVisible at isMod
  split at isMod
  · cases isMod
  · next kept =>
      constructor
      · exact not_not.mp fun other => kept ⟨isMod, Or.inl other⟩
      · exact fun modules => kept ⟨isMod, Or.inr modules⟩

variable (finalized : Finalized config names menu)

include finalized

omit solves [DecidableEq entry] in
theorem member_default (isValue : IsChoiceValue config index) (values : Values entry) :
    defaultValue config values index = .no := by
  unfold defaultValue
  rw [finalized.noDefaults index isValue]
  rfl

theorem visible_le {choice : entry} (belongs : config.choiceOf index = some choice)
    (hasVisibility : HasVisibility config index) :
    (outcomes index).visible ≤ (outcomes choice).tri := by
  have choiceTri : (config.choiceOf index).map (outcomes.values config).tri =
      some (outcomes choice).tri := by
    rw [belongs]
    rfl
  rw [visible_eq solves hasVisibility, choiceTri]
  have prompts : (config.prompts index).foldl (fun (tri : Tristate) prompt => tri.or
      (promptVisible config index (some (outcomes choice).tri)
        (condition config.table (outcomes.values config) prompt))) .no ≤
          (outcomes choice).tri := by
    refine List.foldlRecOn (motive := fun tri : Tristate => tri ≤ (outcomes choice).tri) _ _ ?_ ?_
    · cases (outcomes choice).tri <;> decide
    · intro tri below prompt listed
      refine or_le below ?_
      unfold promptVisible
      split
      · cases (outcomes choice).tri <;> decide
      · exact finalized.bounded index choice belongs prompt listed (outcomes.values config)
  unfold visibleIn wholeVisible
  split
  next cannot =>
    rw [cannot.1] at prompts
    cases tri : (outcomes choice).tri with
    | no =>
        rw [tri] at prompts
        exact absurd prompts (by decide)
    | yes => exact le_refl _
    | mod =>
        -- Where the choice is `m`, its other values see nothing.
        have notWhole : ¬IsWhole config choice := fun whole => solution_whole solves whole tri
        have type : config.table.type choice = .tristate :=
          (owner_switch belongs).resolve_left fun type => notWhole (Or.inl type)
        have modules : config.modules ≠ .no := fun modules => notWhole (Or.inr ⟨type, modules⟩)
        have nothing : ∀ prompt ∈ config.prompts index,
            condition config.table (outcomes.values config) prompt = .no :=
          fun prompt listed => finalized.whole index choice belongs type
            (cannot.2.resolve_right modules) prompt listed _ (by
              rw [show (outcomes.values config).tri choice = .mod from tri]
              decide)
        have none : (config.prompts index).foldl (fun (tri : Tristate) prompt => tri.or
            (promptVisible config index (some (outcomes choice).tri)
              (condition config.table (outcomes.values config) prompt))) .no = .no := by
          refine List.foldlRecOn (motive := fun tri : Tristate => tri = .no) _ _ rfl ?_
          intro before isNo prompt listed
          rw [isNo, nothing prompt listed]
          unfold promptVisible
          split <;> rfl
        exact absurd (none.symm.trans cannot.1) (by decide)
  next => exact prompts

theorem member_tri (isValue : IsChoiceValue config index) :
    (outcomes index).tri ≤ (outcomes index).visible ∧
      ((outcomes index).visible = .yes → ((outcomes index).tri = .yes ↔
        ∃ choice ∈ config.choiceOf index, (outcomes choice).chosen = some index) ∧
          (outcomes index).tri ≠ .mod) := by
  have isSwitch := finalized.switches index isValue
  have simple : config.choiceValues index = none := by
    cases isChoice : config.choiceValues index with
    | none => rfl
    | some listed => exact absurd (config.choiceApart index listed isChoice) isValue
  have tri := simple_tri solves isSwitch simple
  obtain ⟨noReverse, noImplied⟩ := member_unselected solves isValue isSwitch.hasVisibility
  have noChoice : ¬IsChoice config index := not_not_intro simple
  have none : ¬(Tristate.no ≠ .no) := not_not_intro rfl
  unfold switchValue at tri
  dsimp only at tri
  rw [noReverse, noImplied, member_default finalized isValue, if_neg noChoice, if_neg none] at tri
  cases visible : (outcomes index).visible with
  | no =>
      rw [visible, if_neg (fun both => by cases both.2), if_neg (fun both => none both.1)] at tri
      rw [tri]
      exact ⟨le_refl _, fun isYes => by cases isYes⟩
  | mod =>
      rw [visible, if_neg (fun both => by cases both.2)] at tri
      obtain ⟨type, modules⟩ := wholeVisible_mod
        ((visible_eq solves isSwitch.hasVisibility).symm.trans visible)
      refine ⟨?_, fun isYes => by cases isYes⟩
      have typed : typeFor config index .mod = .tristate := by
        unfold typeFor
        rw [if_pos type, if_neg (fun both => by cases both.2), if_neg modules]
      rw [typed] at tri
      rw [tri]
      split
      · cases user.tri index <;> decide
      · decide
  | yes =>
      rw [visible, if_pos ⟨isValue, rfl⟩] at tri
      refine ⟨?_, fun _ => ⟨?_, ?_⟩⟩
      · cases (outcomes index).tri <;> decide
      · rw [tri, ofBool_yes, decide_eq_true_iff]
      · rw [tri]
        cases decide (∃ choice ∈ config.choiceOf index, (outcomes choice).chosen = some index) <;>
          decide

end Members

/-! ### What is read back -/

/-- The symbols of the file are set, and all that the user sees are in the file. -/
structure Restored [DecidableEq entry] (config : Config entry) (outcomes : Outcomes entry)
    (symbols : List entry) (read : Settings config) : Prop where
  follows : Follows (outcomes.values config) symbols read
  single : ∀ index ∈ symbols, ¬IsChoice config index
  shown : ∀ index, ¬IsChoice config index → HasVisibility config index →
    (outcomes index).visible ≠ .no → index ∈ symbols

section Reread

variable [DecidableEq entry] {config : Config entry} {user : User config} {defUser : entry → Bool}
  {outcomes : Outcomes entry} {names : Names config} {menu : Menu entry} {index : entry}
  (solves : Solves config user defUser outcomes) (finalized : Finalized config names menu)

include solves finalized

theorem chosen_of_yes {choice : entry} (belongs : config.choiceOf index = some choice)
    (whole : (outcomes index).tri = .yes) :
    (outcomes choice).tri = .yes ∧ (outcomes choice).chosen = some index := by
  have isValue : IsChoiceValue config index := isChoiceValue_of_owner belongs
  have isSwitch := finalized.switches index isValue
  obtain ⟨below, picks⟩ := member_tri solves finalized isValue
  rw [whole] at below
  have visible := yes_le below
  have choiceBelow := visible_le solves finalized belongs isSwitch.hasVisibility
  rw [visible] at choiceBelow
  obtain ⟨other, isOther, chosen⟩ := (picks visible).1.mp whole
  cases belongs.symm.trans isOther
  exact ⟨yes_le choiceBelow, chosen⟩

theorem solution_fits : Fits config (outcomes.values config) where
  plain index noSwitch := plain_tri solves noSwitch
  one first second choice firstBelongs secondBelongs whole := by
    obtain ⟨choiceWhole, chosen⟩ := chosen_of_yes solves finalized firstBelongs whole
    cases tri : (outcomes second).tri with
    | no => exact Or.inr tri
    | yes =>
        have also := (chosen_of_yes solves finalized secondBelongs tri).2
        exact Or.inl (Option.some.inj (also.symm.trans chosen))
    | mod =>
        -- A value that is `m` would be seen as `m`, but the choice is `y`.
        have isValue : IsChoiceValue config second := isChoiceValue_of_owner secondBelongs
        have isSwitch := finalized.switches second isValue
        obtain ⟨below, picks⟩ := member_tri solves finalized isValue
        have visible : (outcomes second).visible ≠ .mod := by
          rw [visible_eq solves isSwitch.hasVisibility, secondBelongs, Option.map_some,
            show (outcomes.values config).tri choice = .yes from choiceWhole]
          exact visibleIn_whole isSwitch
        rw [tri] at below
        have isYes : (outcomes second).visible = .yes := by
          cases seen : (outcomes second).visible with
          | no =>
              rw [seen] at below
              exact absurd below (by decide)
          | mod => exact absurd seen visible
          | yes => rfl
        exact absurd tri (picks isYes).2

theorem solution_shows (single : ¬IsChoice config index) (hasVisibility : HasVisibility config index)
    (visible : (outcomes index).visible ≠ .no) : Shows config outcomes index where
  hasVisibility := hasVisibility
  plain := (finalized.prompted index single (prompts_of_visible solves hasVisibility visible)).2
  visible := visible
  whole choice belongs whole := by
    have below := visible_le solves finalized belongs hasVisibility
    rw [whole] at below
    exact yes_le below

variable {rank : entry → Nat} (ranked : Ranked config rank) {fuel : Nat}
  (within : ∀ index, rank index < fuel)

include ranked within

/-- What the file says is read back. -/
theorem confWrite_restores {rootPrompt : CString}
    (titled : '\n' ∉ rootPrompt ∧ ¬configPrefix <+: rootPrompt) {changed : Bool}
    {state start : State entry} (cleared : Cleared config defUser start) {order : List entry}
    (reached : (if changed = true then state else symClearAllValid config user fuel state) =
      order.foldl (symCalcValue config user fuel) start)
    (readable : ∀ index ∈ confWriteSymbols config user fuel changed state menu,
      Readable config (outcomes.values config) index) :
    (∀ index ∈ confWriteSymbols config user fuel changed state menu, index ∈ menu.symbols) ∧
      Restored config outcomes (confWriteSymbols config user fuel changed state menu)
        (confReadSimple names (confWrite config user fuel changed rootPrompt state menu).2) := by
  have begun : Invariant config rank defUser (fun _ => False) outcomes fuel start :=
    cleared.invariant (fun _ => False) fuel
  have invariant : Invariant config rank defUser (fun _ => False) outcomes fuel
      (order.foldl (symCalcValue config user fuel) start) :=
    (foldl_own ranked user solves within begun).1
  rw [← reached] at invariant
  have wrote := writeMenus_wrote ranked within user solves menu finalized.titles invariant
  let symbols := confWriteSymbols config user fuel changed state menu
  obtain ⟨listing, isText, written⟩ := wrote.lines
  obtain ⟨heading, isHeading, idle⟩ := heading_idle titled.1 titled.2
  have whole : Written config (outcomes.values config) (heading ++ listing) ([] ++ symbols) :=
    (written_idle idle).append written
  have single := fun index inSymbols => (wrote.listed index inSymbols).2
  have inMenus := fun index inSymbols => (wrote.listed index inSymbols).1
  have read : confReadSimple names (confWrite config user fuel changed rootPrompt state menu).2 =
      symbols.foldl (assign (outcomes.values config)) (KconfigFile.cleared config) := by
    unfold confReadSimple confWrite
    dsimp only
    rw [isHeading, isText, ← List.flatMap_append]
    exact Written.read (solution_coherent solves)
      (fun index inSymbols => finalized.listed index (inMenus index inSymbols)
        (single index inSymbols))
      readable whole _
  refine ⟨inMenus, ?_, single, fun index simple hasVisibility visible => ?_⟩
  · rw [read]
    exact assigns_follow (solution_fits solves finalized) single (follows_cleared _)
  · have prompts := prompts_of_visible solves hasVisibility visible
    exact (wrote.shown index (finalized.prompted index simple prompts).1 simple
      (solution_shows solves finalized simple hasVisibility visible)).resolve_left id

end Reread

/-! ### The values again -/

section Again

variable [DecidableEq entry] {config : Config entry} {user : User config} {defUser : entry → Bool}
  {outcomes : Outcomes entry} {names : Names config} {menu : Menu entry} {index : entry}
  {symbols : List entry} {read : Settings config}

omit [DecidableEq entry] in
theorem limited_none {low high value : Int} (above : low ≤ value) (below : value ≤ high) :
    limited low high value = none := by
  unfold limited
  rw [if_pos above, if_pos below]

theorem rangedText_again (solves : Solves config user defUser outcomes)
    (storable : Storable config symbols defUser outcomes) (inSymbols : index ∈ symbols) :
    rangedText config (outcomes.values config) index (outcomes index).val =
      (outcomes index).val := by
  unfold rangedText
  cases based : rangeBase (config.table.type index) with
  | none => rfl
  | some base =>
      cases met : firstMet config (outcomes.values config) (config.ranges index) with
      | none => rfl
      | some prop =>
          obtain ⟨⟨left, right⟩, visible⟩ := prop
          obtain ⟨ordered, natural⟩ := storable.ordered index inSymbols base left right visible
            based met
          obtain ⟨above, below⟩ := solution_ranged solves based met ordered natural
          dsimp only
          rw [limited_none above below]

theorem textValue_again (restored : Restored config outcomes symbols read)
    (solves : Solves config user defUser outcomes) (storable : Storable config symbols defUser outcomes)
    (isText : IsText config index) :
    rangedText config (outcomes.values config) index (textValue config read.user read.set
        (outcomes.values config) index (outcomes index).visible) = (outcomes index).val := by
  have hasVisibility : HasVisibility config index := by
    rcases isText with type | type | type <;> exact ⟨by rw [type]; decide, by rw [type]; decide⟩
  have result := congrArg Outcome.val ((solves index).trans (outcome_text isText))
  dsimp only at result
  rw [← visible_eq solves hasVisibility] at result
  by_cases visible : (outcomes index).visible = .no
  · rw [result]
    unfold textValue
    rw [if_neg fun both => both.1 visible, if_neg fun both => both.1 visible]
  · have inSymbols := restored.shown index isText.single hasVisibility visible
    have set := (restored.follows.set index).mpr (Or.inr inSymbols)
    have val := restored.follows.val index
    rw [if_pos ⟨inSymbols, fun isSwitch => isSwitch.not_text isText⟩] at val
    unfold textValue
    rw [if_pos ⟨visible, set⟩, val]
    exact rangedText_again solves storable inSymbols

/-- What the user does not see is not taken from the user, nor what a choice has decided. -/
theorem switchValue_unseen {others : User config} {flags : entry → Bool}
    {visible revDep implied : Tristate}
    (unseen : visible = .no ∨ IsChoiceValue config index ∧ visible = .yes) :
    switchValue config user defUser outcomes index visible revDep implied =
      switchValue config others flags outcomes index visible revDep implied := by
  unfold switchValue
  dsimp only
  rcases unseen with none | whole
  · rw [none]
    simp only [ne_eq, not_true_eq_false, false_and, if_false]
  · rw [if_pos whole, if_pos whole]

theorem switchValue_again (restored : Restored config outcomes symbols read)
    (finalized : Finalized config names menu) (solves : Solves config user defUser outcomes)
    (storable : Storable config symbols defUser outcomes)
    (isSwitch : KconfigEquations.IsSwitch config index) (simple : config.choiceValues index = none) :
    switchValue config read.user read.set outcomes index (outcomes index).visible
        (outcomes index).revDep (outcomes index).implied = (outcomes index).tri := by
  have noChoice : ¬IsChoice config index := not_not_intro simple
  have tri := simple_tri solves isSwitch simple
  by_cases whole : IsChoiceValue config index ∧ (outcomes index).visible = .yes
  · exact (switchValue_unseen (Or.inr whole)).trans tri.symm
  by_cases visible : (outcomes index).visible = .no
  · exact (switchValue_unseen (Or.inl visible)).trans tri.symm
  have inSymbols := restored.shown index noChoice isSwitch.hasVisibility visible
  have set := (restored.follows.set index).mpr (Or.inr inSymbols)
  have sameTri := restored.follows.tri index noChoice
  rw [if_pos inSymbols] at sameTri
  -- The value that was selected is one that the prompt or a selection allows.
  have allowed : ∃ value, (outcomes index).tri = selectedValue
      (typeFor config index (outcomes index).visible) (outcomes index).implied
        (outcomes index).revDep value ∧
      (value ≤ (outcomes index).visible ∨ value ≤ (outcomes index).revDep) := by
    unfold switchValue at tri
    dsimp only at tri
    rw [if_neg whole, if_neg noChoice] at tri
    split at tri
    · exact ⟨_, tri, Or.inl (and_le_right _ _)⟩
    next new =>
      have unset : defUser index = false := by
        cases flag : defUser index with
        | false => rfl
        | true => exact absurd ⟨visible, flag⟩ new
      have fits : (defaultValue config (outcomes.values config) index).or (outcomes index).implied ≤
          (outcomes index).visible ∨
            (defaultValue config (outcomes.values config) index).or (outcomes index).implied ≤
              (outcomes index).revDep := by
        by_cases isValue : IsChoiceValue config index
        · rw [(member_unselected solves isValue isSwitch.hasVisibility).2,
            member_default finalized isValue]
          left
          cases (outcomes index).visible <;> decide
        · exact storable.within index isSwitch noChoice isValue unset visible
      split at tri
      · exact ⟨_, tri, fits⟩
      · next none =>
        refine ⟨_, tri, fits.imp ?_ ?_⟩
        · exact le_trans (le_or_left _ _)
        · exact le_trans (le_or_left _ _)
  obtain ⟨value, same, fits⟩ := allowed
  unfold switchValue
  dsimp only
  rw [if_neg whole, if_pos ⟨visible, set⟩, sameTri]
  change selectedValue _ _ _ ((outcomes index).tri.and _) = _
  rw [same]
  exact selectedValue_again fits

theorem choiceTri_le (restored : Restored config outcomes symbols read)
    (finalized : Finalized config names menu) (solves : Solves config user defUser outcomes)
    (isChoice : IsChoice config index) : read.user.tri index ≤ (outcomes index).tri := by
  rcases restored.follows.among index isChoice with none | ⟨value, _, belongs, same⟩
  · rw [none]
    cases (outcomes index).tri <;> decide
  · have isValue : IsChoiceValue config value := isChoiceValue_of_owner belongs
    rw [same]
    exact le_trans (member_tri solves finalized isValue).1 (visible_le solves finalized belongs
      (finalized.switches value isValue).hasVisibility)

/-- A value of a choice that is set has been read. -/
theorem member_read (restored : Restored config outcomes symbols read)
    (finalized : Finalized config names menu) (solves : Solves config user defUser outcomes)
    {value : entry} (belongs : config.choiceOf value = some index)
    (set : (outcomes value).tri ≠ .no) : value ∈ symbols := by
  have isValue : IsChoiceValue config value := isChoiceValue_of_owner belongs
  have simple : ¬IsChoice config value := by
    intro isChoice
    obtain ⟨listed, isListed⟩ := Option.ne_none_iff_exists'.mp isChoice
    exact isValue (config.choiceApart value listed isListed)
  refine restored.shown value simple (finalized.switches value isValue).hasVisibility fun none => ?_
  have below := (member_tri solves finalized isValue).1
  rw [none] at below
  exact set (le_no below)

theorem choiceMode_seen (isChoice : IsChoice config index) (single : ¬IsChoiceValue config index)
    {others : User config} {flags : entry → Bool} {visible revDep implied : Tristate}
    (seen : visible ≠ .no) :
    switchValue config others flags outcomes index visible revDep implied =
      selectedValue (typeFor config index visible) implied revDep
        (if flags index = true then (others.tri index).and visible else .no) := by
  unfold switchValue
  dsimp only
  rw [if_neg fun both => single both.1]
  by_cases set : flags index = true
  · rw [if_pos ⟨seen, set⟩, if_pos set]
  · rw [if_neg fun both => set both.2, if_pos isChoice, if_neg set]

theorem selectedValue_mod {type : SymbolType} {implied revDep value tri visible : Tristate}
    (isMod : selectedValue type implied revDep value = .mod) (below : tri ≤ .mod)
    (some : revDep = .mod ∨ tri = .mod) (seen : visible ≠ .no) :
    selectedValue type implied revDep (tri.and visible) = .mod := by
  unfold selectedValue at isMod ⊢
  by_cases raised : type = .boolean ∨ implied = .yes
  · simp only [raised, and_true] at isMod
    split at isMod
    · cases isMod
    · next kept => exact absurd isMod kept
  · simp only [raised, and_false, if_false] at isMod ⊢
    cases tri <;> cases visible <;> cases revDep <;> cases value <;>
      first
      | rfl
      | exact absurd rfl seen
      | exact absurd below (by decide)
      | exact absurd isMod (by decide)
      | exact absurd some (by decide)

theorem selectedValue_unset {type : SymbolType} {implied revDep : Tristate}
    (plain : revDep ≠ .mod) : selectedValue type implied revDep .no ≠ .mod := by
  unfold selectedValue
  dsimp only
  split
  · decide
  · cases revDep with
    | no => decide
    | mod => exact absurd rfl plain
    | yes => decide

theorem selectedValue_falls {type : SymbolType} {implied revDep old : Tristate}
    (plain : revDep ≠ .mod) (notMod : selectedValue type implied revDep old ≠ .mod)
    (different : selectedValue type implied revDep .no ≠ selectedValue type implied revDep old) :
    selectedValue type implied revDep old = .yes ∧ selectedValue type implied revDep .no = .no := by
  have least : selectedValue type implied revDep .no ≤ selectedValue type implied revDep old :=
    selectedValue_mono (by cases old <;> decide)
  have whole : selectedValue type implied revDep .no ≠ .mod := selectedValue_unset plain
  generalize selectedValue type implied revDep old = before at *
  generalize selectedValue type implied revDep .no = again at *
  cases before with
  | no => exact absurd (le_no least) different
  | mod => exact absurd rfl notMod
  | yes =>
      cases again with
      | no => exact ⟨rfl, rfl⟩
      | mod => exact absurd rfl whole
      | yes => exact absurd rfl different

theorem picked_unset {others : User config} {values : Values entry} {listed : List entry}
    (unpicked : picked config user values index listed = none)
    (forgets : others.chosen index = none) :
    picked config others values index listed = none := by
  unfold picked at unpicked ⊢
  dsimp only at unpicked ⊢
  rw [forgets]
  dsimp only
  cases remembered : user.chosen index with
  | none =>
      rw [remembered] at unpicked
      exact unpicked
  | some value =>
      rw [remembered] at unpicked
      dsimp only at unpicked
      split at unpicked
      · cases unpicked
      · exact unpicked

theorem picked_again (restored : Restored config outcomes symbols read)
    (finalized : Finalized config names menu) (solves : Solves config user defUser outcomes)
    {listed : List entry} (isChoice : config.choiceValues index = some listed)
    (whole : (outcomes index).tri = .yes) :
    (∃ value ∈ symbols, config.choiceOf value = some index ∧ (outcomes value).tri = .yes) ∧
      picked config read.user (outcomes.values config) index listed = (outcomes index).chosen := by
  obtain ⟨value, isListed, chosen, shown, _⟩ := choice_picks solves isChoice whole
  have belongs := (config.choiceListed index listed isChoice value).mp isListed
  have isValue : IsChoiceValue config value := isChoiceValue_of_owner belongs
  have isSwitch := finalized.switches value isValue
  have visible : (outcomes value).visible = .yes := by
    rw [visible_eq solves isSwitch.hasVisibility, belongs, Option.map_some,
      show (outcomes.values config).tri index = .yes from whole]
    exact full_of_whole (visibleIn_whole isSwitch) shown
  have set : (outcomes value).tri = .yes :=
    ((member_tri solves finalized isValue).2 visible).1.mpr ⟨index, belongs, chosen⟩
  have inSymbols := member_read restored finalized solves belongs (by rw [set]; decide)
  have remembers := (restored.follows.chosen index value).mpr ⟨belongs, inSymbols, set⟩
  have val : (outcomes.values config).val index = "n".toList := by
    have result := (solves index).trans
      (outcome_switch (config.choiceSwitch index listed isChoice))
    dsimp only at result
    rw [isChoice] at result
    exact congrArg Outcome.val result
  refine ⟨⟨value, inSymbols, belongs, set⟩, ?_⟩
  unfold picked
  dsimp only
  rw [remembers, picking_self (show (outcomes.values config).tri index = .yes from whole) val]
  dsimp only
  rw [if_pos shown, chosen]

/-- The mode of a choice, before it has looked for a value. -/
theorem choiceMode_again (restored : Restored config outcomes symbols read)
    (finalized : Finalized config names menu) (solves : Solves config user defUser outcomes)
    (storable : Storable config symbols defUser outcomes) {listed : List entry}
    (isChoice : config.choiceValues index = some listed) :
    let before := switchValue config user defUser outcomes index (outcomes index).visible
      (outcomes index).revDep (outcomes index).implied
    let again := switchValue config read.user read.set outcomes index (outcomes index).visible
      (outcomes index).revDep (outcomes index).implied
    ((outcomes index).tri = .yes → before = .yes → again = .yes) ∧
      ((outcomes index).tri = .mod → before = .mod → again = .mod) ∧
      ((outcomes index).tri = .no → before ≠ .mod → again ≠ before →
        before = .yes ∧ again = .no) := by
  have single := KconfigChoices.choice_single isChoice
  have chooses : IsChoice config index := isChoice_of_values isChoice
  have set := (restored.follows.set index).mpr (Or.inl chooses)
  have below := choiceTri_le restored finalized solves chooses
  dsimp only
  by_cases visible : (outcomes index).visible = .no
  · have same : switchValue config read.user read.set outcomes index (outcomes index).visible
        (outcomes index).revDep (outcomes index).implied =
          switchValue config user defUser outcomes index (outcomes index).visible
            (outcomes index).revDep (outcomes index).implied :=
      switchValue_unseen (Or.inl visible)
    rw [same]
    exact ⟨fun _ => id, fun _ => id, fun _ _ different => absurd rfl different⟩
  rw [choiceMode_seen chooses single visible, choiceMode_seen chooses single visible, if_pos set]
  have limited : (if defUser index = true then (user.tri index).and (outcomes index).visible
      else .no) ≤ (outcomes index).visible := by
    split
    · exact and_le_right _ _
    · cases (outcomes index).visible <;> decide
  generalize (if defUser index = true then (user.tri index).and (outcomes index).visible
      else Tristate.no) = old at *
  refine ⟨fun whole same => ?_, fun isMod same => ?_, fun none notMod different => ?_⟩
  · obtain ⟨⟨value, inSymbols, belongs, isYes⟩, _⟩ := picked_again restored finalized solves isChoice
      whole
    have above := restored.follows.above value inSymbols index belongs
    change (outcomes value).tri ≤ _ at above
    rw [isYes] at above
    rw [yes_le above]
    refine yes_le (le_trans (le_of_eq same.symm) (selectedValue_mono ?_))
    revert limited
    cases (outcomes index).visible <;> exact id
  · rw [isMod] at below
    refine selectedValue_mod same below ?_ visible
    refine (storable.mode index chooses isMod).imp_right fun ⟨value, belongs, valueMod⟩ => ?_
    have inSymbols := member_read restored finalized solves belongs (by rw [valueMod]; decide)
    have above := restored.follows.above value inSymbols index belongs
    change (outcomes value).tri ≤ _ at above
    rw [valueMod] at above
    exact le_antisymm below above
  · rw [none] at below
    rw [le_no below] at different ⊢
    have unset : Tristate.no.and (outcomes index).visible = .no := by
      cases (outcomes index).visible <;> rfl
    rw [unset] at different ⊢
    exact selectedValue_falls (storable.unset index chooses none) notMod different

theorem choice_again (restored : Restored config outcomes symbols read)
    (finalized : Finalized config names menu) (solves : Solves config user defUser outcomes)
    (storable : Storable config symbols defUser outcomes) {listed : List entry}
    (isChoice : config.choiceValues index = some listed) :
    let again := switchValue config read.user read.set outcomes index (outcomes index).visible
      (outcomes index).revDep (outcomes index).implied
    let picks := if again = .yes then picked config read.user (outcomes.values config) index listed
      else none
    (if again = .yes ∧ picks = none then .no else again) = (outcomes index).tri ∧
      picks = (outcomes index).chosen := by
  have isSwitch := config.choiceSwitch index listed isChoice
  have result := (solves index).trans (outcome_seen solves isSwitch user defUser)
  dsimp only at result
  rw [isChoice] at result
  have tri := congrArg Outcome.tri result
  have chosen := congrArg Outcome.chosen result
  dsimp only at tri chosen
  obtain ⟨whole, isMod, none⟩ := choiceMode_again restored finalized solves storable isChoice
  dsimp only
  generalize switchValue config user defUser outcomes index (outcomes index).visible
    (outcomes index).revDep (outcomes index).implied = before at *
  generalize switchValue config read.user read.set outcomes index (outcomes index).visible
    (outcomes index).revDep (outcomes index).implied = again at *
  cases mode : (outcomes index).tri with
  | yes =>
      obtain ⟨wasYes, found⟩ := reset_yes (tri.symm.trans mode)
      obtain ⟨_, picks⟩ := picked_again restored finalized solves isChoice mode
      rw [← chosen] at found
      rw [whole mode wasYes, if_pos rfl, picks, if_neg fun both => found both.2]
      exact ⟨rfl, rfl⟩
  | mod =>
      have wasMod := reset_mod (tri.symm.trans mode)
      have notYes : ¬(Tristate.mod = .yes) := by decide
      rw [wasMod, if_neg notYes] at chosen
      rw [isMod mode wasMod, if_neg notYes, chosen]
      exact ⟨if_neg fun both => notYes both.1, rfl⟩
  | no =>
      rw [mode] at tri
      have notMod : before ≠ .mod := by
        intro same
        rw [same, if_neg fun both => absurd both.1 (by decide)] at tri
        cases tri
      have unpicked : before = .yes → picked config user (outcomes.values config) index listed =
          .none := by
        intro wasYes
        rw [wasYes, if_pos rfl] at tri
        split at tri
        next both => exact both.2
        next => cases tri
      have noChosen : (outcomes index).chosen = .none := by
        rw [chosen]
        split
        next wasYes => exact unpicked wasYes
        next => rfl
      have forgets : read.user.chosen index = .none := by
        cases remembers : read.user.chosen index with
        | none => rfl
        | some value =>
            obtain ⟨belongs, _, set⟩ := (restored.follows.chosen index value).mp remembers
            have isYes := (chosen_of_yes solves finalized belongs set).1
            exact absurd (mode.symm.trans isYes) (by decide)
      rw [noChosen]
      cases again with
      | no => exact ⟨if_neg fun both => absurd both.1 (by decide), if_neg (by decide)⟩
      | mod =>
          have different : Tristate.mod ≠ before := notMod.symm
          exact absurd (none mode notMod different).2 (by decide)
      | yes =>
          by_cases same : Tristate.yes = before
          · have still := picked_unset (unpicked same.symm) forgets
            rw [if_pos rfl, still]
            exact ⟨if_pos ⟨rfl, rfl⟩, rfl⟩
          · exact absurd (none mode notMod same).2 (by decide)

/-- The values that have been saved solve the equations for the settings that are read back. -/
theorem saved_solves (restored : Restored config outcomes symbols read)
    (finalized : Finalized config names menu) (solves : Solves config user defUser outcomes)
    (storable : Storable config symbols defUser outcomes) :
    Solves config read.user read.set outcomes := by
  intro index
  by_cases hasVisibility : HasVisibility config index
  · rcases hasVisibility.split with isSwitch | isText
    · have before := (solves index).trans (outcome_seen solves isSwitch user defUser)
      have again := outcome_seen solves isSwitch read.user read.set
      dsimp only at before again
      cases isChoice : config.choiceValues index with
      | none =>
          rw [isChoice] at before again
          have same := switchValue_again restored finalized solves storable isSwitch isChoice
          have tri := congrArg Outcome.tri before
          dsimp only at tri
          rw [again, same]
          rw [← tri] at before
          exact before
      | some listed =>
          rw [isChoice] at before again
          obtain ⟨mode, picks⟩ := choice_again restored finalized solves storable isChoice
          have tri := congrArg Outcome.tri before
          have chosen := congrArg Outcome.chosen before
          dsimp only at tri chosen mode picks again before
          rw [again, mode, picks]
          rw [← tri, ← chosen] at before
          exact before
    · have before := (solves index).trans (outcome_text isText)
      have same := textValue_again restored solves storable isText
      have val := congrArg Outcome.val before
      dsimp only at before val
      rw [← visible_eq solves hasVisibility] at before val
      rw [← val] at before
      rw [outcome_text isText, ← visible_eq solves hasVisibility, same]
      exact before
  · rw [outcome_rest hasVisibility]
    exact (solves index).trans (outcome_rest hasVisibility)

end Again

end BuildLinux.Concrete.KconfigSaved
