/-
The calculation of a choice.

While a choice that is `y` looks for the value that it picks, its own value is
`y` already: this is what the prompts of its values see.
-/

import BuildLinux.Concrete.KconfigMemo

namespace BuildLinux.Concrete.KconfigChoices

open CStrings KconfigExpr KconfigConditions KconfigCalculation KconfigValues
  KconfigEquations KconfigMemo

variable {entry : Type}

/-! ### The visibility of the values of a choice -/

section Members

variable [DecidableEq entry] {config : Config entry} {rank : entry → Nat}
  {defUser : entry → Bool} {done : entry → Prop} {outcomes : Outcomes entry}
  {before after state : State entry}
  {choice : entry} {calculate : State entry → entry → State entry}

/-- A choice that is `y` while it picks one of its values. -/
structure Running (state : State entry) (choice : entry) : Prop where
  valid : (state choice).valid = true
  tri : (state choice).tri = .yes
  val : (state choice).val = "n".toList

omit [DecidableEq entry] in
theorem Running.alike (running : Running before choice)
    (alike : Alike (before choice) (after choice)) : Running after choice := by
  constructor
  · rw [alike.same]
    exact running.valid
  · rw [alike.same]
    exact running.tri
  · rw [alike.same]
    exact running.val

/-- Below the rank of a choice that picks, nothing is different. -/
theorem known_picking {other : entry} (below : rank other < rank choice) :
    Known rank outcomes (rank choice) (picking (outcomes.values config) choice) state other := by
  have different : other ≠ choice := fun same => absurd (congrArg rank same) (Nat.ne_of_lt below)
  obtain ⟨tri, val⟩ := picking_other (outcomes.values config) different
  exact Or.inl ⟨below, tri, val⟩

theorem Running.known (running : Running state choice) :
    Known rank outcomes (rank choice) (picking (outcomes.values config) choice) state choice := by
  obtain ⟨tri, val⟩ := picking_choice (outcomes.values config) choice
  exact Or.inr ⟨Nat.le_refl _, running.valid, tri.trans running.tri.symm,
    val.trans running.val.symm⟩

theorem memberPrompt_known (ranked : Ranked config rank) (running : Running state choice)
    {value : entry} (belongs : config.choiceOf value = some choice)
    {prompt : Option (Expr entry)} (listed : prompt ∈ config.prompts value) {e : Expr entry}
    (isPrompt : e ∈ prompt) :
    KnownIn rank outcomes (rank choice) (picking (outcomes.values config) choice) state e := by
  intro other contained
  rcases ranked.prompt value e (isPrompt ▸ listed) other contained with isChoice | below
  · cases belongs.symm.trans isChoice
    exact running.known
  · unfold owner at below
    rw [belongs] at below
    exact known_picking below

omit [DecidableEq entry] in
/-- A choice is no value of a choice. -/
theorem choice_single {listed : List entry} (isChoice : config.choiceValues choice = some listed) :
    ¬IsChoiceValue config choice :=
  not_not_intro (config.choiceApart choice listed isChoice)

omit [DecidableEq entry] in
theorem member_apart (single : ¬IsChoiceValue config choice) {value : entry}
    (belongs : config.choiceOf value = some choice) : value ≠ choice := by
  intro same
  rw [same] at belongs
  exact single (isChoiceValue_of_owner belongs)

/-- What is calculated below a choice does not change the visibility of its values. -/
theorem member_visible (ranked : Ranked config rank)
    (step : Step config rank defUser done outcomes (rank choice) before after)
    {value : entry} (belongs : config.choiceOf value = some choice) :
    (after value).visible = (before value).visible := by
  rcases step.kept.visible value (Nat.le_of_lt (ranked.choice value choice belongs))
    (Option.some_ne_none value).symm with same | ⟨other, isOther, isOwn | ⟨below, _⟩⟩
  · exact same
  · exact absurd isOwn (Option.some_ne_none other).symm
  · cases belongs.symm.trans isOther
    exact absurd below (Nat.lt_irrefl _)

/-- While a choice is calculated, the visibility of its values may change. -/
theorem kept_show (state : State entry) {value : entry}
    (belongs : config.choiceOf value = some choice) (visible : Tristate) :
    Kept config rank (rank choice) (some choice) state
      (state.change value fun cell => { cell with visible := visible }) where
  valid other isValid := by
    by_cases same : other = value
    · cases same
      rw [change_self]
      exact isValid
    · rw [change_other state _ same]
      exact isValid
  rest other _ _ := by
    by_cases same : other = value
    · cases same
      rw [change_self]
    · rw [change_other state _ same]
  visible other _ _ := by
    by_cases same : other = value
    · cases same
      exact Or.inr ⟨choice, belongs, Or.inl rfl⟩
    · rw [change_other state _ same]
      exact Or.inl rfl
  write other _ _ written := by
    by_cases same : other = value
    · cases same
      rw [change_self]
      exact written
    · rw [change_other state _ same]
      exact written

/-- What is known of the values of a choice that picks. -/
def Shown (config : Config entry) (outcomes : Outcomes entry) (choice : entry)
    (state : State entry) (value : entry) : Prop :=
  (state value).visible =
    visibleIn config (picking (outcomes.values config) choice) (some .yes) value

/-- The visibility of one value. -/
theorem calcMember_spec (ranked : Ranked config rank)
    (lower : Lower config rank defUser done outcomes (rank choice) calculate)
    (invariant : Invariant config rank defUser done outcomes (rank choice) state)
    (running : Running state choice) (single : ¬IsChoiceValue config choice) {value : entry}
    (belongs : config.choiceOf value = some choice) :
    let after := calcVisibility config calculate state value
    Progress config rank defUser done outcomes choice state after ∧
      Alike (state choice) (after choice) ∧ Shown config outcomes choice after value ∧
      ∀ other, config.choiceOf other = some choice → other ≠ value →
        (after other).visible = (state other).visible := by
  have isValue : IsChoiceValue config value := isChoiceValue_of_owner belongs
  have apart := member_apart single belongs
  have modules : (picking (outcomes.values config) choice).modules = config.modules := rfl
  obtain ⟨step, visible, _⟩ := calcPrompts_spec lower modules invariant
    (fun prompt listed e isPrompt => memberPrompt_known ranked running belongs listed isPrompt)
    (fun other isOther => (ranked.asked value other isOther).2) .no
  unfold calcVisibility calcShown
  dsimp only
  rw [if_pos isValue]
  refine ⟨⟨step.invariant.change (Nat.le_of_lt (ranked.choice value choice belongs)) id
    (step.invariant.apart value) fun _ _ => id,
      (step.kept.owned choice).trans (kept_show _ belongs _)⟩, ?_, ?_,
    fun other isOther different => ?_⟩
  · rw [change_other _ _ apart.symm]
    exact step.own (asked_single single state)
  · have choiceTri : (config.choiceOf value).map (picking (outcomes.values config) choice).tri =
        some .yes := by
      rw [belongs]
      exact congrArg some (picking_choice (outcomes.values config) choice).1
    unfold Shown
    rw [change_self]
    dsimp only
    rw [visible, choiceTri]
    rfl
  · rw [change_other _ _ different]
    exact member_visible ranked step isOther

/-- The visibility of all of them. -/
theorem calcShown_members (ranked : Ranked config rank)
    (lower : Lower config rank defUser done outcomes (rank choice) calculate)
    (invariant : Invariant config rank defUser done outcomes (rank choice) state)
    (running : Running state choice) (single : ¬IsChoiceValue config choice)
    {members : List entry} (belong : ∀ value ∈ members, config.choiceOf value = some choice) :
    let after := members.foldl (calcVisibility config calculate) state
    Progress config rank defUser done outcomes choice state after ∧
      Alike (state choice) (after choice) ∧
      (∀ value ∈ members, Shown config outcomes choice after value) ∧
      ∀ other, config.choiceOf other = some choice → other ∉ members →
        (after other).visible = (state other).visible := by
  induction members generalizing state with
  | nil =>
      refine ⟨Progress.refl invariant, Alike.refl _, fun value listed => ?_, fun _ _ _ => rfl⟩
      exact absurd listed List.not_mem_nil
  | cons value rest ih =>
      obtain ⟨first, alike, shown, others⟩ := calcMember_spec ranked lower invariant running single
        (belong value List.mem_cons_self)
      obtain ⟨later, alikeLater, shownLater, othersLater⟩ := ih first.invariant
        (running.alike alike) fun other listed => belong other (List.mem_cons_of_mem value listed)
      refine ⟨first.trans later, alike.trans alikeLater, fun other listed => ?_,
        fun other isOther unlisted => ?_⟩
      · by_cases inRest : other ∈ rest
        · exact shownLater other inRest
        · rcases List.mem_cons.mp listed with same | isRest
          · cases same
            exact (othersLater value (belong value List.mem_cons_self) inRest).trans shown
          · exact absurd isRest inRest
      · have different : other ≠ value := fun same => unlisted (same ▸ List.mem_cons_self)
        exact (othersLater other isOther fun inRest =>
          unlisted (List.mem_cons_of_mem value inRest)).trans (others other isOther different)

/-! ### The value that a choice picks -/

/-- A property of a choice names one of its values. -/
def Named (config : Config entry) (choice : entry) (prop : Expr entry × Option (Expr entry)) :
    Prop :=
  ∃ value, prop.1 = .symbol (.entry value) ∧ config.choiceOf value = some choice

theorem visibleValues_shown (listed : List entry)
    (shown : ∀ value ∈ listed, Shown config outcomes choice state value) :
    visibleValues state listed = listed.filter fun value => decide
      (visibleIn config (picking (outcomes.values config) choice) (some .yes) value ≠ .no) := by
  unfold visibleValues
  refine List.filter_congr fun value isListed => ?_
  rw [shown value isListed]

theorem choiceDefault_spec (ranked : Ranked config rank)
    (lower : Lower config rank defUser done outcomes (rank choice) calculate)
    (invariant : Invariant config rank defUser done outcomes (rank choice) state)
    (listed : List entry)
    (shown : ∀ value, config.choiceOf value = some choice →
      Shown config outcomes choice state value)
    {props : List (Expr entry × Option (Expr entry))}
    (named : ∀ prop ∈ props, Named config choice prop)
    (depends : ∀ prop ∈ props, ∀ e ∈ prop.2, ∀ other,
      exprContainsSymbol (.entry other) e = true → rank other < rank choice) :
    let now := picking (outcomes.values config) choice
    let visible := visibleIn config now (some .yes)
    let result := choiceDefault config calculate state props
    Step config rank defUser done outcomes (rank choice) state result.1 ∧
      result.2.or (listed.filter fun value => decide (visible value ≠ .no)).head? =
        pickedDefault config now listed visible props := by
  induction props generalizing state with
  | nil => exact ⟨Step.refl invariant, rfl⟩
  | cons prop rest ih =>
      obtain ⟨value, names, belongs⟩ := named prop List.mem_cons_self
      have modules : (picking (outcomes.values config) choice).modules = config.modules := rfl
      obtain ⟨step, _, met⟩ := calcCondition_spec lower modules invariant
        (fun e isDep other contained =>
          known_picking (depends prop List.mem_cons_self e isDep other contained))
      have shownLater : ∀ other, config.choiceOf other = some choice →
          Shown config outcomes choice (calcCondition config calculate state prop.2).1 other :=
        fun other isOther => (member_visible ranked step isOther).trans (shown other isOther)
      unfold choiceDefault pickedDefault
      dsimp only
      rw [names, met]
      unfold propSymbol
      dsimp only
      rw [shownLater value belongs]
      split
      · exact ⟨step, rfl⟩
      · obtain ⟨later, found⟩ := ih step.invariant shownLater
          (fun next member => named next (List.mem_cons_of_mem prop member))
          (fun next member => depends next (List.mem_cons_of_mem prop member))
        exact ⟨step.trans later, found⟩

theorem symChoiceDefault_spec (ranked : Ranked config rank)
    (lower : Lower config rank defUser done outcomes (rank choice) calculate)
    (invariant : Invariant config rank defUser done outcomes (rank choice) state)
    {listed : List entry}
    (isChoice : config.choiceValues choice = some listed)
    (shown : ∀ value, config.choiceOf value = some choice →
      Shown config outcomes choice state value) :
    let now := picking (outcomes.values config) choice
    let visible := visibleIn config now (some .yes)
    let result := symChoiceDefault config calculate state choice listed
    Step config rank defUser done outcomes (rank choice) state result.1 ∧
      result.2 = pickedDefault config now listed visible (config.defaults choice) := by
  have named : ∀ prop ∈ config.defaults choice, Named config choice prop := by
    intro prop isDefault
    obtain ⟨value, isListed, names⟩ := config.choiceDefaults choice listed isChoice prop isDefault
    exact ⟨value, names, (config.choiceListed choice listed isChoice value).mp isListed⟩
  have depends : ∀ prop ∈ config.defaults choice, ∀ e ∈ prop.2, ∀ other,
      exprContainsSymbol (.entry other) e = true → rank other < rank choice :=
    fun prop isDefault e isDep => ranked.dependency choice e (defaultCondition_depends isDefault isDep)
  obtain ⟨step, found⟩ := choiceDefault_spec ranked lower invariant listed shown named depends
  have shownValues := visibleValues_shown listed fun value isListed =>
    (member_visible ranked step ((config.choiceListed choice listed isChoice value).mp isListed)).trans
      (shown value ((config.choiceListed choice listed isChoice value).mp isListed))
  dsimp only at found ⊢
  rw [← found]
  unfold symChoiceDefault
  dsimp only
  cases first : (choiceDefault config calculate state (config.defaults choice)).2 with
  | some value => exact ⟨step, rfl⟩
  | none =>
      refine ⟨step, ?_⟩
      dsimp only
      rw [shownValues]
      rfl

theorem calcFallback_spec (ranked : Ranked config rank)
    (lower : Lower config rank defUser done outcomes (rank choice) calculate)
    (invariant : Invariant config rank defUser done outcomes (rank choice) state)
    (running : Running state choice) {listed : List entry}
    (isChoice : config.choiceValues choice = some listed)
    (shown : ∀ value, config.choiceOf value = some choice →
      Shown config outcomes choice state value) :
    let now := picking (outcomes.values config) choice
    let visible := visibleIn config now (some .yes)
    let chosen := pickedDefault config now listed visible (config.defaults choice)
    let tri : Tristate := if chosen = none then .no else .yes
    let after := calcFallback config calculate state choice listed
    Progress config rank defUser done outcomes choice state after ∧
      Alike { (state choice) with chosen := chosen, tri := tri } (after choice) ∧
      ∀ value, config.choiceOf value = some choice → Shown config outcomes choice after value := by
  have single : ¬IsChoiceValue config choice := choice_single isChoice
  obtain ⟨step, found⟩ := symChoiceDefault_spec ranked lower invariant isChoice shown
  have alike := step.own (asked_single single state)
  have changed : Progress config rank defUser done outcomes choice
      (symChoiceDefault config calculate state choice listed).1
      (calcFallback config calculate state choice listed) := by
    unfold calcFallback
    exact Progress.change step.invariant id (fun isValue => absurd isValue single) fun _ _ => id
  refine ⟨step.progress.trans changed, ?_, fun value belongs => ?_⟩
  · unfold calcFallback
    dsimp only at found ⊢
    rw [change_self, found]
    refine ⟨?_, alike.write⟩
    rw [alike.same, running.tri]
  · unfold Shown calcFallback
    rw [change_other _ _ (member_apart single belongs)]
    exact (member_visible ranked step belongs).trans (shown value belongs)

/-- The visibility of the values, and whether the choice is new. -/
theorem calcMembers_spec (ranked : Ranked config rank)
    (lower : Lower config rank defUser done outcomes (rank choice) calculate)
    (invariant : Invariant config rank defUser done outcomes (rank choice) state)
    (running : Running state choice) {listed : List entry}
    (isChoice : config.choiceValues choice = some listed) :
    let after := calcMembers config calculate state choice listed
    Progress config rank defUser done outcomes choice state after ∧
      Alike { (state choice) with defUser := (after choice).defUser } (after choice) ∧
      ∀ value, config.choiceOf value = some choice → Shown config outcomes choice after value := by
  have single : ¬IsChoiceValue config choice := choice_single isChoice
  have ofListed := config.choiceListed choice listed isChoice
  obtain ⟨members, alike, shown, _⟩ := calcShown_members ranked lower invariant running single
    fun value isListed => (ofListed value).mp isListed
  have changed : Progress config rank defUser done outcomes choice
      (listed.foldl (calcVisibility config calculate) state)
      (calcMembers config calculate state choice listed) := by
    unfold calcMembers
    exact Progress.change members.invariant id (members.invariant.apart choice) fun _ _ => id
  refine ⟨members.trans changed, ?_, fun value belongs => ?_⟩
  · unfold calcMembers
    dsimp only
    rw [change_self]
    refine ⟨?_, alike.write⟩
    rw [alike.same]
  · unfold Shown calcMembers
    rw [change_other _ _ (member_apart single belongs)]
    exact shown value ((ofListed value).mpr belongs)

theorem calcChoice_spec (ranked : Ranked config rank) (user : User config)
    (lower : Lower config rank defUser done outcomes (rank choice) calculate)
    (invariant : Invariant config rank defUser done outcomes (rank choice) state)
    (running : Running state choice) {listed : List entry}
    (isChoice : config.choiceValues choice = some listed) :
    let chosen := picked config user (outcomes.values config) choice listed
    let tri : Tristate := if chosen = none then .no else .yes
    let after := calcChoice config user calculate state choice listed
    Progress config rank defUser done outcomes choice state after ∧
      Alike { (state choice) with
        chosen := chosen, tri := tri, defUser := (after choice).defUser } (after choice) ∧
      ∀ value, config.choiceOf value = some choice → Shown config outcomes choice after value := by
  have single : ¬IsChoiceValue config choice := choice_single isChoice
  obtain ⟨members, alike, shown⟩ := calcMembers_spec ranked lower invariant running isChoice
  have runningStill : Running (calcMembers config calculate state choice listed) choice := by
    constructor
    · rw [alike.same]
      exact running.valid
    · rw [alike.same]
      exact running.tri
    · rw [alike.same]
      exact running.val
  obtain ⟨fallback, fell, fellShown⟩ := calcFallback_spec ranked lower members.invariant
    runningStill isChoice shown
  unfold picked calcChoice
  dsimp only at fell ⊢
  cases remembered : user.chosen choice with
  | none =>
      refine ⟨members.trans fallback, ⟨?_, fun written => fell.write (alike.write written)⟩,
        fellShown⟩
      dsimp only
      rw [fell.same, alike.same]
  | some value =>
      have isShown := shown value (user.chosenListed choice value remembered)
      unfold Shown at isShown
      dsimp only
      rw [isShown]
      split
      · refine ⟨members.trans (Progress.change members.invariant id (fun isValue =>
          absurd isValue single) fun _ _ => id), ?_, fun other belongs => ?_⟩
        · rw [change_self, if_neg (Option.some_ne_none value)]
          refine ⟨?_, alike.write⟩
          rw [alike.same, running.tri]
        · unfold Shown
          rw [change_other _ _ (member_apart single belongs)]
          exact shown other belongs
      · refine ⟨members.trans fallback, ⟨?_, fun written => fell.write (alike.write written)⟩,
          fellShown⟩
        rw [fell.same, alike.same]

end Members

end BuildLinux.Concrete.KconfigChoices
