/-
The calculation solves the equations between the values.

While a symbol is calculated, only symbols of a lower rank are; what is known of
the others stays as it is, up to the visibility of values whose choice is
calculated for the first time.  So every symbol ends with its outcome, in
whatever order the symbols are asked for.
-/

import BuildLinux.Concrete.KconfigEquations

namespace BuildLinux.Concrete.KconfigMemo

open CStrings NumberText KconfigExpr KconfigConditions KconfigCalculation KconfigValues
  KconfigEquations

variable {entry : Type}

/-! ### What holds between two steps of the calculation -/

/-- The cell of a symbol has its outcome. -/
structure Settles (config : Config entry) (index : entry) (cell : Cell entry)
    (outcome : Outcome entry) : Prop where
  tri : cell.tri = outcome.tri
  val : cell.val = outcome.val
  chosen : cell.chosen = outcome.chosen
  known : HasVisibility config index →
    cell.visible = outcome.visible ∧ cell.dirDep = outcome.dirDep ∧
      cell.revDep = outcome.revDep ∧ cell.implied = outcome.implied

/-- A symbol that the user sees, and that is written.  In a choice it is whole only when the choice
is. -/
structure Shows (config : Config entry) (outcomes : Outcomes entry) (index : entry) : Prop where
  hasVisibility : HasVisibility config index
  plain : config.auto index = false
  visible : (outcomes index).visible ≠ .no
  whole : ∀ choice, config.choiceOf index = some choice → (outcomes index).visible = .yes →
    (outcomes choice).tri = .yes

/-- A symbol is to be written, or has been. -/
def Marked (done : entry → Prop) (state : State entry) (index : entry) : Prop :=
  (state index).write = true ∨ done index

/-- Valid symbols below a rank are settled, and marked where they are shown.  The values of a
choice that is `y` are marked with the choice. -/
structure Invariant (config : Config entry) (rank : entry → Nat) (defUser : entry → Bool)
    (done : entry → Prop) (outcomes : Outcomes entry) (bound : Nat) (state : State entry) :
    Prop where
  settled : ∀ index, rank index < bound → (state index).valid = true →
    Settles config index (state index) (outcomes index)
  choice : ∀ value choice, config.choiceOf value = some choice → HasVisibility config value →
    rank value < bound → (state value).valid = true → (state choice).valid = true
  user : ∀ index, rank index < bound → (state index).valid = false →
    (state index).defUser = defUser index
  apart : ∀ value, IsChoiceValue config value →
    (state value).dirDep = .no ∧ (state value).revDep = .no ∧ (state value).implied = .no
  marked : ∀ index, rank index < bound → (state index).valid = true →
    Shows config outcomes index → Marked done state index
  members : ∀ value choice, config.choiceOf value = some choice → rank choice < bound →
    (state choice).valid = true → (outcomes choice).tri = .yes → Shows config outcomes value →
    Marked done state value

/-- What the calculation of a symbol, which is its own, and of others of a lower rank leaves of
the symbols from that rank on. -/
structure Kept (config : Config entry) (rank : entry → Nat) (bound : Nat) (own : Option entry)
    (before after : State entry) : Prop where
  valid : ∀ index, (before index).valid = true → (after index).valid = true
  rest : ∀ index, bound ≤ rank index → own ≠ some index →
    after index = { before index with
      visible := (after index).visible, write := (after index).write }
  visible : ∀ index, bound ≤ rank index → own ≠ some index →
    (after index).visible = (before index).visible ∨
      ∃ choice, config.choiceOf index = some choice ∧ (own = some choice ∨
        rank choice < bound ∧ (before choice).valid = false ∧ (after choice).valid = true)
  write : ∀ index, bound ≤ rank index → own ≠ some index →
    (before index).write = true → (after index).write = true

section Kept

variable {config : Config entry} {rank : entry → Nat} {defUser : entry → Bool}
  {done : entry → Prop} {outcomes : Outcomes entry} {bound : Nat} {own : Option entry}
  {before middle after : State entry}

theorem Kept.refl (state : State entry) : Kept config rank bound own state state :=
  ⟨fun _ => id, fun _ _ _ => rfl, fun _ _ _ => Or.inl rfl, fun _ _ _ => id⟩

theorem Kept.trans (first : Kept config rank bound own before middle)
    (second : Kept config rank bound own middle after) :
    Kept config rank bound own before after where
  valid index isValid := second.valid index (first.valid index isValid)
  rest index above other := by
    have once := first.rest index above other
    have twice := second.rest index above other
    rw [once] at twice
    exact twice
  visible index above other := by
    rcases second.visible index above other with same | ⟨choice, belongs, changed⟩
    · rcases first.visible index above other with also | ⟨choice, belongs, changed⟩
      · exact Or.inl (same.trans also)
      · rcases changed with isOwn | ⟨below, wasInvalid, isValid⟩
        · exact Or.inr ⟨choice, belongs, Or.inl isOwn⟩
        · exact Or.inr ⟨choice, belongs, Or.inr ⟨below, wasInvalid, second.valid _ isValid⟩⟩
    · rcases changed with isOwn | ⟨below, wasInvalid, isValid⟩
      · exact Or.inr ⟨choice, belongs, Or.inl isOwn⟩
      · refine Or.inr ⟨choice, belongs, Or.inr ⟨below, ?_, isValid⟩⟩
        -- A choice that was not valid in between was not valid before.
        cases earlier : (before choice).valid with
        | false => rfl
        | true => exact absurd (first.valid choice earlier) (by rw [wasInvalid]; decide)
  write index above other written :=
    second.write index above other (first.write index above other written)

theorem Kept.owned (kept : Kept config rank bound none before after) (index : entry) :
    Kept config rank bound (some index) before after where
  valid := kept.valid
  rest other above _ := kept.rest other above (Option.some_ne_none other).symm
  visible other above _ := by
    rcases kept.visible other above (Option.some_ne_none other).symm with
      same | ⟨choice, belongs, isOwn | changed⟩
    · exact Or.inl same
    · exact absurd isOwn (Option.some_ne_none choice).symm
    · exact Or.inr ⟨choice, belongs, Or.inr changed⟩
  write other above _ := kept.write other above (Option.some_ne_none other).symm

/-- A symbol that has become valid is one of those of lower rank for the symbols above it. -/
theorem Kept.close {index : entry} (kept : Kept config rank (rank index) (some index) before after)
    (wasInvalid : (before index).valid = false) (isValid : (after index).valid = true) :
    Kept config rank (rank index + 1) none before after where
  valid := kept.valid
  rest other above _ := kept.rest other (Nat.le_of_succ_le above)
    fun same => absurd (congrArg rank (Option.some.inj same)) (by omega)
  visible other above _ := by
    have different : some index ≠ some other :=
      fun same => absurd (congrArg rank (Option.some.inj same)) (by omega)
    rcases kept.visible other (Nat.le_of_succ_le above) different with
      same | ⟨choice, belongs, isOwn | ⟨below, changed⟩⟩
    · exact Or.inl same
    · cases isOwn
      exact Or.inr ⟨index, belongs, Or.inr ⟨Nat.lt_succ_self _, wasInvalid, isValid⟩⟩
    · exact Or.inr ⟨choice, belongs, Or.inr ⟨Nat.lt_succ_of_lt below, changed⟩⟩
  write other above _ := kept.write other (Nat.le_of_succ_le above)
    fun same => absurd (congrArg rank (Option.some.inj same)) (by omega)

theorem Kept.raise {higher : Nat} (kept : Kept config rank bound none before after)
    (above : bound ≤ higher) : Kept config rank higher none before after where
  valid := kept.valid
  rest index atLeast := kept.rest index (Nat.le_trans above atLeast)
  visible index atLeast other := by
    rcases kept.visible index (Nat.le_trans above atLeast) other with
      same | ⟨choice, belongs, isOwn | ⟨below, changed⟩⟩
    · exact Or.inl same
    · exact Or.inr ⟨choice, belongs, Or.inl isOwn⟩
    · exact Or.inr ⟨choice, belongs, Or.inr ⟨Nat.lt_of_lt_of_le below above, changed⟩⟩
  write index atLeast := kept.write index (Nat.le_trans above atLeast)

theorem Invariant.lower {lower : Nat} {state : State entry}
    (invariant : Invariant config rank defUser done outcomes bound state) (below : lower ≤ bound) :
    Invariant config rank defUser done outcomes lower state where
  settled index under := invariant.settled index (Nat.lt_of_lt_of_le under below)
  choice value choice belongs hasVisibility under := invariant.choice value choice belongs
    hasVisibility (Nat.lt_of_lt_of_le under below)
  user index under := invariant.user index (Nat.lt_of_lt_of_le under below)
  apart := invariant.apart
  marked index under := invariant.marked index (Nat.lt_of_lt_of_le under below)
  members value choice belongs under := invariant.members value choice belongs
    (Nat.lt_of_lt_of_le under below)

end Kept

/-! ### Expressions -/

/-- A calculation that works for the symbols below a rank, and leaves valid symbols alone. -/
structure Lower (config : Config entry) (rank : entry → Nat) (defUser : entry → Bool)
    (done : entry → Prop) (outcomes : Outcomes entry) (bound : Nat)
    (calculate : State entry → entry → State entry) : Prop where
  works : ∀ index, rank index < bound → ∀ state,
    Invariant config rank defUser done outcomes bound state →
      Invariant config rank defUser done outcomes bound (calculate state index) ∧
        Kept config rank bound none state (calculate state index) ∧
        (calculate state index index).valid = true
  again : ∀ state index, (state index).valid = true → calculate state index = state

/-- The values that are used for a symbol are its outcome, or what it has already. -/
def Known (rank : entry → Nat) (outcomes : Outcomes entry) (bound : Nat) (values : Values entry)
    (state : State entry) (index : entry) : Prop :=
  (rank index < bound ∧ values.tri index = (outcomes index).tri ∧
      values.val index = (outcomes index).val) ∨
    bound ≤ rank index ∧ (state index).valid = true ∧ values.tri index = (state index).tri ∧
      values.val index = (state index).val

/-- A symbol has been calculated, with these values. -/
structure Answers (values : Values entry) (state : State entry) (index : entry) : Prop where
  valid : (state index).valid = true
  tri : (state index).tri = values.tri index
  val : (state index).val = values.val index

section Expressions

variable {config : Config entry} {rank : entry → Nat} {defUser : entry → Bool}
  {done : entry → Prop} {outcomes : Outcomes entry} {bound : Nat}
  {calculate : State entry → entry → State entry}
  {values : Values entry} {before after state : State entry}

/-- What a calculation below the bound leads to. -/
structure Step (config : Config entry) (rank : entry → Nat) (defUser : entry → Bool)
    (done : entry → Prop) (outcomes : Outcomes entry) (bound : Nat)
    (before after : State entry) : Prop where
  invariant : Invariant config rank defUser done outcomes bound after
  kept : Kept config rank bound none before after

theorem Step.refl (invariant : Invariant config rank defUser done outcomes bound state) :
    Step config rank defUser done outcomes bound state state :=
  ⟨invariant, Kept.refl state⟩

theorem Step.trans {middle : State entry}
    (first : Step config rank defUser done outcomes bound before middle)
    (second : Step config rank defUser done outcomes bound middle after) :
    Step config rank defUser done outcomes bound before after :=
  ⟨second.invariant, first.kept.trans second.kept⟩

theorem Kept.cell (kept : Kept config rank bound none before after) {index : entry}
    (above : bound ≤ rank index) :
    (after index).valid = (before index).valid ∧ (after index).tri = (before index).tri ∧
      (after index).val = (before index).val := by
  rw [kept.rest index above (Option.some_ne_none index).symm]
  exact ⟨rfl, rfl, rfl⟩

theorem Known.later (known : Known rank outcomes bound values before index)
    (kept : Kept config rank bound none before after) :
    Known rank outcomes bound values after index := by
  rcases known with below | ⟨above, valid, tri, val⟩
  · exact Or.inl below
  · obtain ⟨sameValid, sameTri, sameVal⟩ := kept.cell above
    exact Or.inr ⟨above, sameValid.trans valid, tri.trans sameTri.symm, val.trans sameVal.symm⟩

theorem answers_of_known (invariant : Invariant config rank defUser done outcomes bound state)
    {index : entry} (known : Known rank outcomes bound values state index)
    (valid : (state index).valid = true) : Answers values state index := by
  rcases known with ⟨below, tri, val⟩ | ⟨_, _, tri, val⟩
  · have settles := invariant.settled index below valid
    exact ⟨valid, settles.tri.trans tri.symm, settles.val.trans val.symm⟩
  · exact ⟨valid, tri.symm, val.symm⟩

theorem Answers.later {index : entry} (answers : Answers values before index)
    (known : Known rank outcomes bound values before index)
    (step : Step config rank defUser done outcomes bound before after) :
    Answers values after index :=
  answers_of_known step.invariant (known.later step.kept) (step.kept.valid index answers.valid)

/-- All symbols of an expression are known. -/
def KnownIn [DecidableEq entry] (rank : entry → Nat) (outcomes : Outcomes entry) (bound : Nat)
    (values : Values entry) (state : State entry) (e : Expr entry) : Prop :=
  ∀ index, exprContainsSymbol (.entry index) e = true → Known rank outcomes bound values state index

def AnswersIn [DecidableEq entry] (values : Values entry) (state : State entry)
    (e : Expr entry) : Prop :=
  ∀ index, exprContainsSymbol (.entry index) e = true → Answers values state index

variable (lower : Lower config rank defUser done outcomes bound calculate)

include lower

theorem calcSymbol_spec (invariant : Invariant config rank defUser done outcomes bound state)
    {sym : Symbol entry}
    (known : ∀ index, sym = .entry index → Known rank outcomes bound values state index) :
    Step config rank defUser done outcomes bound state (calcSymbol calculate state sym) ∧
      ∀ index, sym = .entry index → Answers values (calcSymbol calculate state sym) index := by
  cases sym with
  | yes => exact ⟨Step.refl invariant, fun index other => nomatch other⟩
  | mod => exact ⟨Step.refl invariant, fun index other => nomatch other⟩
  | no => exact ⟨Step.refl invariant, fun index other => nomatch other⟩
  | entry index =>
      rcases known index rfl with ⟨below, same⟩ | ⟨above, valid, same⟩
      · obtain ⟨invariantAfter, kept, valid⟩ := lower.works index below state invariant
        refine ⟨⟨invariantAfter, kept⟩, fun other isIndex => ?_⟩
        cases isIndex
        exact answers_of_known invariantAfter (Or.inl ⟨below, same⟩) valid
      · change Step config rank defUser done outcomes bound state (calculate state index) ∧ _
        have unchanged := lower.again state index valid
        refine ⟨?_, fun other isIndex => ?_⟩
        · rw [unchanged]
          exact Step.refl invariant
        · cases isIndex
          change Answers values (calculate state index) index
          rw [unchanged]
          exact answers_of_known invariant (Or.inr ⟨above, valid, same⟩) valid

variable [DecidableEq entry] (modules : values.modules = config.modules)

include modules

theorem calcExpr_spec (invariant : Invariant config rank defUser done outcomes bound state)
    {e : Expr entry} (known : KnownIn rank outcomes bound values state e) :
    Step config rank defUser done outcomes bound state (calcExpr config calculate state e).1 ∧
      AnswersIn values (calcExpr config calculate state e).1 e ∧
      (calcExpr config calculate state e).2 = exprCalcValue config.table values e := by
  induction e generalizing state with
  | symbol sym =>
      obtain ⟨step, answers⟩ := calcSymbol_spec lower invariant
        (fun index (isIndex : sym = .entry index) => known index (decide_eq_true isIndex))
      refine ⟨step, fun index contained => answers index (of_decide_eq_true contained), ?_⟩
      cases sym with
      | yes => rfl
      | mod => rfl
      | no => rfl
      | entry index => exact (answers index rfl).tri
  | not operand ih =>
      obtain ⟨step, answers, value⟩ := ih invariant known
      exact ⟨step, answers, congrArg Tristate.not value⟩
  | two type left right ihLeft ihRight =>
      have inLeft {index : entry} (contained : exprContainsSymbol (.entry index) left = true) :
          exprContainsSymbol (.entry index) (.two type left right) = true :=
        Bool.or_eq_true_iff.mpr (Or.inl contained)
      have inRight {index : entry} (contained : exprContainsSymbol (.entry index) right = true) :
          exprContainsSymbol (.entry index) (.two type left right) = true :=
        Bool.or_eq_true_iff.mpr (Or.inr contained)
      obtain ⟨first, leftAnswers, leftValue⟩ := ihLeft invariant
        fun index contained => known index (inLeft contained)
      obtain ⟨second, rightAnswers, rightValue⟩ := ihRight first.invariant
        fun index contained => (known index (inRight contained)).later first.kept
      refine ⟨first.trans second, fun index contained => ?_,
        congrArg₂ type.apply leftValue rightValue⟩
      rcases Bool.or_eq_true_iff.mp contained with isLeft | isRight
      · exact (leftAnswers index isLeft).later
          ((known index (inLeft isLeft)).later first.kept) second
      · exact rightAnswers index isRight
  | comp type left right =>
      have inLeft {index : entry} (isLeft : left = .entry index) :
          exprContainsSymbol (.entry index) (.comp type left right) = true :=
        Bool.or_eq_true_iff.mpr (Or.inl (decide_eq_true isLeft))
      have inRight {index : entry} (isRight : right = .entry index) :
          exprContainsSymbol (.entry index) (.comp type left right) = true :=
        Bool.or_eq_true_iff.mpr (Or.inr (decide_eq_true isRight))
      obtain ⟨first, leftAnswers⟩ := calcSymbol_spec lower invariant
        fun index isLeft => known index (inLeft isLeft)
      obtain ⟨second, rightAnswers⟩ := calcSymbol_spec lower first.invariant
        fun index isRight => (known index (inRight isRight)).later first.kept
      have answers : AnswersIn values (calcSymbol calculate (calcSymbol calculate state left) right)
          (.comp type left right) := by
        intro index contained
        rcases Bool.or_eq_true_iff.mp contained with isLeft | isRight
        · exact (leftAnswers index (of_decide_eq_true isLeft)).later
            ((known index contained).later first.kept) second
        · exact rightAnswers index (of_decide_eq_true isRight)
      exact ⟨first.trans second, answers, value_of_contained modules.symm
        fun index contained => ⟨(answers index contained).tri, (answers index contained).val⟩⟩

theorem calcCondition_spec (invariant : Invariant config rank defUser done outcomes bound state)
    {dep : Option (Expr entry)}
    (known : ∀ e ∈ dep, KnownIn rank outcomes bound values state e) :
    Step config rank defUser done outcomes bound state (calcCondition config calculate state dep).1 ∧
      (∀ e ∈ dep, AnswersIn values (calcCondition config calculate state dep).1 e) ∧
      (calcCondition config calculate state dep).2 = condition config.table values dep := by
  cases dep with
  | none =>
      refine ⟨Step.refl invariant, fun e isDep => ?_, rfl⟩
      cases Option.mem_def.mp isDep
  | some e =>
      obtain ⟨step, answers, value⟩ := calcExpr_spec lower modules invariant (known e rfl)
      refine ⟨step, fun other isDep => ?_, value⟩
      cases Option.mem_def.mp isDep
      exact answers

theorem firstVisible_spec {property : Type}
    (invariant : Invariant config rank defUser done outcomes bound state)
    {props : List (property × Option (Expr entry))}
    (known : ∀ prop ∈ props, ∀ e ∈ prop.2, KnownIn rank outcomes bound values state e) :
    Step config rank defUser done outcomes bound state (firstVisible config calculate state props).1 ∧
      (firstVisible config calculate state props).2 = firstMet config values props := by
  induction props generalizing state with
  | nil => exact ⟨Step.refl invariant, rfl⟩
  | cons prop rest ih =>
      obtain ⟨step, _, value⟩ := calcCondition_spec lower modules invariant
        (known prop List.mem_cons_self)
      unfold firstVisible firstMet
      dsimp only
      rw [value]
      split
      · exact ⟨step, rfl⟩
      · obtain ⟨later, found⟩ := ih step.invariant fun next member e isDep index contained =>
          (known next (List.mem_cons_of_mem prop member) e isDep index contained).later step.kept
        exact ⟨step.trans later, found⟩

/-- Once the prompts have been asked, so has the choice. -/
theorem calcPrompts_spec (invariant : Invariant config rank defUser done outcomes bound state)
    {index : entry} {prompts : List (Option (Expr entry))}
    (known : ∀ prompt ∈ prompts, ∀ e ∈ prompt, KnownIn rank outcomes bound values state e)
    (asked : ∀ choice, config.choiceOf index = some choice → ∀ prompt ∈ prompts,
      ∃ e, prompt = some e ∧ exprContainsSymbol (.entry choice) e = true) (tri : Tristate) :
    let result := calcPrompts config calculate index state tri prompts
    Step config rank defUser done outcomes bound state result.1 ∧
      result.2 = prompts.foldl (fun tri prompt => tri.or (promptVisible config index
        ((config.choiceOf index).map values.tri) (condition config.table values prompt))) tri ∧
      ∀ choice, config.choiceOf index = some choice → prompts ≠ [] →
        Answers values result.1 choice := by
  induction prompts generalizing state tri with
  | nil => exact ⟨Step.refl invariant, rfl, fun _ _ impossible => absurd rfl impossible⟩
  | cons prompt rest ih =>
      obtain ⟨step, answers, value⟩ := calcCondition_spec lower modules invariant
        (known prompt List.mem_cons_self)
      have choiceAnswers : ∀ choice, config.choiceOf index = some choice →
          Answers values (calcCondition config calculate state prompt).1 choice ∧
            Known rank outcomes bound values state choice := by
        intro choice belongs
        obtain ⟨e, isPrompt, contained⟩ := asked choice belongs prompt List.mem_cons_self
        exact ⟨answers e isPrompt choice contained,
          known prompt List.mem_cons_self e isPrompt choice contained⟩
      have sameChoice : choiceTri config (calcCondition config calculate state prompt).1 index =
          (config.choiceOf index).map values.tri := by
        unfold choiceTri
        cases belongs : config.choiceOf index with
        | none => rfl
        | some choice => exact congrArg some (choiceAnswers choice belongs).1.tri
      obtain ⟨later, visible, _⟩ := ih step.invariant
        (fun next member e isDep other contained =>
          (known next (List.mem_cons_of_mem prompt member) e isDep other contained).later step.kept)
        (fun choice belongs next member =>
          asked choice belongs next (List.mem_cons_of_mem prompt member))
        (tri.or (promptVisible config index ((config.choiceOf index).map values.tri)
          (condition config.table values prompt)))
      unfold calcPrompts
      dsimp only
      rw [value, sameChoice]
      refine ⟨step.trans later, visible, fun choice belongs _ => ?_⟩
      obtain ⟨answered, choiceKnown⟩ := choiceAnswers choice belongs
      exact answered.later (choiceKnown.later step.kept) later

omit modules

/-- A condition that selects, for a symbol outside of choices. -/
theorem calcSelected_spec (modules : values.modules = config.modules)
    (invariant : Invariant config rank defUser done outcomes bound state)
    {index : entry} (apart : ¬IsChoiceValue config index) {dep : Option (Expr entry)}
    (known : ∀ e ∈ dep, KnownIn rank outcomes bound values state e) :
    Step config rank defUser done outcomes bound state
        (calcSelected config calculate state index dep).1 ∧
      (calcSelected config calculate state index dep).2 = selectedIn config values index dep := by
  cases dep with
  | none => exact ⟨Step.refl invariant, rfl⟩
  | some e =>
      obtain ⟨step, _, value⟩ := calcExpr_spec lower modules invariant (known e rfl)
      refine ⟨step, ?_⟩
      have sameType (visible : Tristate) : typeFor config index visible =
          typeFor config index .no := by
        unfold typeFor
        simp only [apart, false_and, if_false]
      change wholeSelected (typeFor config index _) _ = _
      rw [value, sameType]
      rfl

end Expressions

/-! ### Visibility -/

section Visibility

variable {config : Config entry} {rank : entry → Nat} {defUser : entry → Bool}
  {done : entry → Prop} {outcomes : Outcomes entry} {bound : Nat}
  {before after state : State entry} [DecidableEq entry]

theorem change_self (state : State entry) (index : entry)
    (change : Cell entry → Cell entry) : state.change index change index = change (state index) :=
  Function.update_self index _ state

theorem change_other (state : State entry) {index other : entry}
    (change : Cell entry → Cell entry) (different : other ≠ index) :
    state.change index change other = state other :=
  Function.update_of_ne different _ state

/-- A change of a symbol that is not below the bound; a value of a choice stays apart, and marked
where it is. -/
theorem Invariant.change (invariant : Invariant config rank defUser done outcomes bound state)
    {index : entry} (above : bound ≤ rank index) {change : Cell entry → Cell entry}
    (valid : (state index).valid = true → (change (state index)).valid = true)
    (apart : IsChoiceValue config index → (change (state index)).dirDep = .no ∧
      (change (state index)).revDep = .no ∧ (change (state index)).implied = .no)
    (marks : IsChoiceValue config index → config.auto index = false →
      (state index).write = true → (change (state index)).write = true) :
    Invariant config rank defUser done outcomes bound (state.change index change) where
  settled other below := by
    have different : other ≠ index := fun same => absurd (same ▸ below) (Nat.not_lt.mpr above)
    rw [change_other state change different]
    exact invariant.settled other below
  choice value choice belongs hasVisibility below := by
    have different : value ≠ index := fun same => absurd (same ▸ below) (Nat.not_lt.mpr above)
    rw [change_other state change different]
    intro isValid
    have choiceValid := invariant.choice value choice belongs hasVisibility below isValid
    by_cases same : choice = index
    · cases same
      rw [change_self]
      exact valid choiceValid
    · rw [change_other state change same]
      exact choiceValid
  user other below := by
    have different : other ≠ index := fun same => absurd (same ▸ below) (Nat.not_lt.mpr above)
    rw [change_other state change different]
    exact invariant.user other below
  apart value isValue := by
    by_cases same : value = index
    · cases same
      rw [change_self]
      exact apart isValue
    · rw [change_other state change same]
      exact invariant.apart value isValue
  marked other below := by
    have different : other ≠ index := fun same => absurd (same ▸ below) (Nat.not_lt.mpr above)
    unfold Marked
    rw [change_other state change different]
    exact invariant.marked other below
  members value choice belongs below := by
    have different : choice ≠ index := fun same => absurd (same ▸ below) (Nat.not_lt.mpr above)
    rw [change_other state change different]
    intro isValid whole shows
    have marked := invariant.members value choice belongs below isValid whole shows
    have isValue : IsChoiceValue config value := isChoiceValue_of_owner belongs
    by_cases same : value = index
    · cases same
      unfold Marked
      rw [change_self]
      exact marked.imp_left (marks isValue shows.plain)
    · unfold Marked
      rw [change_other state change same]
      exact marked

/-- A change of the symbol that is calculated. -/
theorem Kept.change (state : State entry) (index : entry) {change : Cell entry → Cell entry}
    (valid : (state index).valid = true → (change (state index)).valid = true) :
    Kept config rank bound (some index) state (state.change index change) where
  valid other isValid := by
    by_cases same : other = index
    · cases same
      rw [change_self]
      exact valid isValid
    · rw [change_other state change same]
      exact isValid
  rest other _ different := by
    rw [change_other state change fun same => different (congrArg some same.symm)]
  visible other _ different := by
    rw [change_other state change fun same => different (congrArg some same.symm)]
    exact Or.inl rfl
  write other _ different := by
    rw [change_other state change fun same => different (congrArg some same.symm)]
    exact id

theorem kept_write {mine : Option entry} (state : State entry) (index : entry) :
    Kept config rank bound mine state (state.write index) where
  valid other isValid := by
    unfold State.write
    by_cases same : other = index
    · cases same
      rw [change_self]
      exact isValid
    · rw [change_other state _ same]
      exact isValid
  rest other _ _ := by
    unfold State.write
    by_cases same : other = index
    · cases same
      rw [change_self]
    · rw [change_other state _ same]
  visible other _ _ := by
    unfold State.write
    by_cases same : other = index
    · cases same
      rw [change_self]
      exact Or.inl rfl
    · rw [change_other state _ same]
      exact Or.inl rfl
  write other _ _ written := by
    unfold State.write
    by_cases same : other = index
    · cases same
      rw [change_self]
    · rw [change_other state _ same]
      exact written

/-- The calculation of a symbol so far. -/
structure Progress (config : Config entry) (rank : entry → Nat) (defUser : entry → Bool)
    (done : entry → Prop) (outcomes : Outcomes entry) (index : entry)
    (before after : State entry) : Prop where
  invariant : Invariant config rank defUser done outcomes (rank index) after
  kept : Kept config rank (rank index) (some index) before after

variable {index : entry} {middle : State entry}

omit [DecidableEq entry] in
theorem Progress.refl (invariant : Invariant config rank defUser done outcomes (rank index) state) :
    Progress config rank defUser done outcomes index state state :=
  ⟨invariant, Kept.refl state⟩

omit [DecidableEq entry] in
theorem Progress.trans (first : Progress config rank defUser done outcomes index before middle)
    (second : Progress config rank defUser done outcomes index middle after) :
    Progress config rank defUser done outcomes index before after :=
  ⟨second.invariant, first.kept.trans second.kept⟩

omit [DecidableEq entry] in
theorem Step.progress (step : Step config rank defUser done outcomes (rank index) before after) :
    Progress config rank defUser done outcomes index before after :=
  ⟨step.invariant, step.kept.owned index⟩

theorem Progress.change (invariant : Invariant config rank defUser done outcomes (rank index) state)
    {change : Cell entry → Cell entry}
    (valid : (state index).valid = true → (change (state index)).valid = true)
    (apart : IsChoiceValue config index → (change (state index)).dirDep = .no ∧
      (change (state index)).revDep = .no ∧ (change (state index)).implied = .no)
    (marks : IsChoiceValue config index → config.auto index = false →
      (state index).write = true → (change (state index)).write = true) :
    Progress config rank defUser done outcomes index state (state.change index change) :=
  ⟨invariant.change (Nat.le_refl _) valid apart marks, Kept.change state index valid⟩

/-- A cell that differs only in that the symbol may have been marked. -/
structure Alike (before after : Cell entry) : Prop where
  same : after = { before with write := after.write }
  write : before.write = true → after.write = true

omit [DecidableEq entry] in
theorem Alike.refl (cell : Cell entry) : Alike cell cell := ⟨rfl, id⟩

omit [DecidableEq entry] in
theorem Alike.trans {first second third : Cell entry} (one : Alike first second)
    (two : Alike second third) : Alike first third := by
  refine ⟨?_, fun written => two.write (one.write written)⟩
  have same := two.same
  rw [one.same] at same
  exact same

/-- The choice of a symbol has been calculated. -/
def Asked (config : Config entry) (state : State entry) (index : entry) : Prop :=
  ∀ choice, config.choiceOf index = some choice → (state choice).valid = true

omit [DecidableEq entry] in
theorem Asked.later (asked : Asked config before index)
    (kept : Kept config rank bound own before after) : Asked config after index :=
  fun choice belongs => kept.valid choice (asked choice belongs)

omit [DecidableEq entry] in
/-- Calculations below a symbol whose choice is calculated leave its cell alone. -/
theorem Step.own (step : Step config rank defUser done outcomes (rank index) before after)
    (asked : Asked config before index) : Alike (before index) (after index) := by
  have rest := step.kept.rest index (Nat.le_refl _) (Option.some_ne_none index).symm
  have sameVisible : (after index).visible = (before index).visible := by
    rcases step.kept.visible index (Nat.le_refl _) (Option.some_ne_none index).symm with
      same | ⟨choice, belongs, isOwn | ⟨_, wasInvalid, _⟩⟩
    · exact same
    · exact absurd isOwn (Option.some_ne_none choice).symm
    · exact absurd (asked choice belongs) (by rw [wasInvalid]; decide)
  refine ⟨?_, step.kept.write index (Nat.le_refl _) (Option.some_ne_none index).symm⟩
  rw [rest, sameVisible]

theorem write_self (state : State entry) (index : entry) :
    (state.write index index).write = true := by
  unfold State.write
  rw [change_self]

theorem write_alike (state : State entry) (index : entry) :
    Alike (state index) (state.write index index) := by
  unfold State.write
  rw [change_self]
  exact ⟨rfl, fun _ => rfl⟩

theorem Progress.write (invariant : Invariant config rank defUser done outcomes (rank index) state) :
    Progress config rank defUser done outcomes index state (state.write index) :=
  Progress.change invariant id (invariant.apart index) fun _ _ _ => rfl

end Visibility

/-! ### The symbols that one depends on -/

section Dependencies

variable [DecidableEq entry] {config : Config entry} {rank : entry → Nat}
  {defUser : entry → Bool} {done : entry → Prop} {outcomes : Outcomes entry}
  {state : State entry} {index : entry}
  (ranked : Ranked config rank)

include ranked

theorem depends_known {e : Expr entry} (depends : e ∈ dependencies config index) :
    KnownIn rank outcomes (rank index) (outcomes.values config) state e :=
  fun other contained => Or.inl ⟨ranked.dependency index e depends other contained, rfl, rfl⟩

theorem rangeSymbols_known {prop : (Symbol entry × Symbol entry) × Option (Expr entry)}
    (listed : prop ∈ config.ranges index) :
    KnownIn rank outcomes (rank index) (outcomes.values config) state (.symbol prop.1.1) ∧
      KnownIn rank outcomes (rank index) (outcomes.values config) state (.symbol prop.1.2) :=
  ⟨depends_known ranked (rangeSymbols_depend listed).1,
    depends_known ranked (rangeSymbols_depend listed).2⟩

theorem prompt_known {prompt : Option (Expr entry)} (listed : prompt ∈ config.prompts index)
    {e : Expr entry} (isPrompt : e ∈ prompt) :
    KnownIn rank outcomes (rank index) (outcomes.values config) state e := by
  intro other contained
  refine Or.inl ⟨?_, rfl, rfl⟩
  rcases ranked.prompt index e (isPrompt ▸ listed) other contained with isChoice | below
  · exact ranked.choice index other isChoice
  · unfold owner at below
    cases belongs : config.choiceOf index with
    | none =>
        rw [belongs] at below
        exact below
    | some choice =>
        rw [belongs] at below
        exact Nat.lt_trans below (ranked.choice index choice belongs)

end Dependencies

/-! ### The visibility of the symbol itself -/

section Seen

variable [DecidableEq entry] {config : Config entry} {rank : entry → Nat}
  {defUser : entry → Bool} {done : entry → Prop} {outcomes : Outcomes entry}
  {state : State entry} {index : entry}
  {calculate : State entry → entry → State entry}

/-- What is known of a symbol once its visibility has been calculated. -/
structure Seen (config : Config entry) (values : Values entry) (index : entry)
    (before after : Cell entry) : Prop where
  valid : after.valid = before.valid
  defUser : after.defUser = before.defUser
  visible : after.visible =
    visibleIn config values ((config.choiceOf index).map values.tri) index
  dirDep : after.dirDep =
    if IsChoiceValue config index then .no else directIn config values index
  revDep : after.revDep = reverseIn config values index
  implied : after.implied = impliedIn config values index

omit [DecidableEq entry] in
theorem Seen.same {values : Values entry} {before middle after : Cell entry}
    (seen : Seen config values index before middle)
    (same : after = { middle with write := after.write }) :
    Seen config values index before after := by
  rw [same]
  exact ⟨seen.valid, seen.defUser, seen.visible, seen.dirDep, seen.revDep, seen.implied⟩

omit [DecidableEq entry] in
theorem Seen.alike {values : Values entry} {before middle after : Cell entry}
    (seen : Seen config values index before middle) (alike : Alike middle after) :
    Seen config values index before after :=
  seen.same alike.same

/-- The prompts of the symbol itself. -/
theorem calcShown_own (ranked : Ranked config rank)
    (lower : Lower config rank defUser done outcomes (rank index) calculate)
    (invariant : Invariant config rank defUser done outcomes (rank index) state) :
    let after := calcShown config calculate state index
    let choice := (config.choiceOf index).map (outcomes.values config).tri
    let visible := visibleIn config (outcomes.values config) choice index
    Progress config rank defUser done outcomes index state after ∧ Asked config after index ∧
      Alike { (state index) with visible := visible } (after index) := by
  have modules : (outcomes.values config).modules = config.modules := rfl
  obtain ⟨prompts, visible, answers⟩ := calcPrompts_spec lower modules invariant
    (fun prompt listed e isPrompt => prompt_known ranked listed isPrompt)
    (fun choice belongs => (ranked.asked index choice belongs).2) .no
  have shown : Progress config rank defUser done outcomes index
      (calcPrompts config calculate index state .no (config.prompts index)).1
      (calcShown config calculate state index) := by
    unfold calcShown
    exact Progress.change prompts.invariant id (prompts.invariant.apart index) fun _ _ => id
  refine ⟨prompts.progress.trans shown, fun choice belongs => ?_, ?_⟩
  · exact shown.kept.valid choice
      (answers choice belongs (ranked.asked index choice belongs).1).valid
  · have rest := prompts.kept.rest index (Nat.le_refl _) (Option.some_ne_none index).symm
    have written := prompts.kept.write index (Nat.le_refl _) (Option.some_ne_none index).symm
    unfold calcShown
    dsimp only
    rw [change_self, visible]
    refine ⟨?_, written⟩
    rw [rest]
    rfl

variable (single : ¬IsChoiceValue config index)

include single

omit [DecidableEq entry] in
theorem asked_single (state : State entry) : Asked config state index :=
  fun choice belongs => absurd
    (show config.choiceOf index ≠ none from by rw [belongs]; exact Option.some_ne_none choice) single

theorem calcDirect_own (ranked : Ranked config rank)
    (lower : Lower config rank defUser done outcomes (rank index) calculate)
    (invariant : Invariant config rank defUser done outcomes (rank index) state) :
    let after := calcDirect config calculate state index
    Progress config rank defUser done outcomes index state after ∧
      Alike { (state index) with dirDep := directIn config (outcomes.values config) index }
        (after index) := by
  have modules : (outcomes.values config).modules = config.modules := rfl
  obtain ⟨step, _, value⟩ := calcCondition_spec lower modules invariant
    (fun e isDep => depends_known ranked (dirDep_depends isDep))
  have alike := step.own (asked_single single state)
  have changed : Progress config rank defUser done outcomes index
      (calcCondition config calculate state (config.dirDep index)).1
      (calcDirect config calculate state index) := by
    unfold calcDirect
    exact Progress.change step.invariant id (fun isValue => absurd isValue single) fun _ _ => id
  refine ⟨step.progress.trans changed, ?_⟩
  unfold calcDirect
  dsimp only
  rw [change_self, value]
  refine ⟨?_, alike.write⟩
  rw [alike.same]
  rfl

theorem calcReverse_own (ranked : Ranked config rank)
    (lower : Lower config rank defUser done outcomes (rank index) calculate)
    (invariant : Invariant config rank defUser done outcomes (rank index) state) :
    let after := calcReverse config calculate state index
    Progress config rank defUser done outcomes index state after ∧
      Alike { (state index) with revDep := reverseIn config (outcomes.values config) index }
        (after index) := by
  have modules : (outcomes.values config).modules = config.modules := rfl
  obtain ⟨step, value⟩ := calcSelected_spec lower modules invariant single
    (fun e isDep => depends_known ranked (revDep_depends isDep))
  have alike := step.own (asked_single single state)
  have changed : Progress config rank defUser done outcomes index
      (calcSelected config calculate state index (config.revDep index)).1
      (calcReverse config calculate state index) := by
    unfold calcReverse
    exact Progress.change step.invariant id (fun isValue => absurd isValue single) fun _ _ => id
  refine ⟨step.progress.trans changed, ?_⟩
  unfold calcReverse reverseIn
  dsimp only
  rw [change_self, value, if_neg single]
  refine ⟨?_, alike.write⟩
  rw [alike.same]

theorem calcImplied_own (ranked : Ranked config rank)
    (lower : Lower config rank defUser done outcomes (rank index) calculate)
    (invariant : Invariant config rank defUser done outcomes (rank index) state)
    (direct : (state index).dirDep = directIn config (outcomes.values config) index) :
    let after := calcImplied config calculate state index
    Progress config rank defUser done outcomes index state after ∧
      Alike { (state index) with implied := impliedIn config (outcomes.values config) index }
        (after index) := by
  have modules : (outcomes.values config).modules = config.modules := rfl
  have known : ∀ e ∈ (if (state index).dirDep ≠ .no then config.implied index else none),
      KnownIn rank outcomes (rank index) (outcomes.values config) state e := by
    intro e isDep
    split at isDep
    · exact depends_known ranked (implied_depends isDep)
    · cases Option.mem_def.mp isDep
  obtain ⟨step, value⟩ := calcSelected_spec lower modules invariant single known
  have alike := step.own (asked_single single state)
  have changed : Progress config rank defUser done outcomes index
      (calcSelected config calculate state index
      (if (state index).dirDep ≠ .no then config.implied index else none)).1
      (calcImplied config calculate state index) := by
    unfold calcImplied
    exact Progress.change step.invariant id (fun isValue => absurd isValue single) fun _ _ => id
  refine ⟨step.progress.trans changed, ?_⟩
  unfold calcImplied impliedIn
  dsimp only
  rw [change_self, value, if_neg single]
  refine ⟨?_, alike.write⟩
  rw [alike.same, direct]

omit single

theorem calcVisibility_own (ranked : Ranked config rank)
    (lower : Lower config rank defUser done outcomes (rank index) calculate)
    (invariant : Invariant config rank defUser done outcomes (rank index) state) :
    let after := calcVisibility config calculate state index
    Progress config rank defUser done outcomes index state after ∧ Asked config after index ∧
      Seen config (outcomes.values config) index (state index) (after index) := by
  obtain ⟨shown, asked, seen⟩ := calcShown_own ranked lower invariant
  by_cases isValue : IsChoiceValue config index
  · obtain ⟨noDirect, noReverse, noImplied⟩ := invariant.apart index isValue
    unfold calcVisibility
    dsimp only
    rw [if_pos isValue]
    refine ⟨shown, asked, ?_⟩
    rw [seen.same]
    refine ⟨rfl, rfl, rfl, ?_, ?_, ?_⟩
    · rw [if_pos isValue]
      exact noDirect
    · unfold reverseIn
      rw [if_pos isValue]
      exact noReverse
    · unfold impliedIn
      rw [if_pos isValue]
      exact noImplied
  · obtain ⟨direct, depends⟩ := calcDirect_own isValue ranked lower shown.invariant
    obtain ⟨reverse, selected⟩ := calcReverse_own isValue ranked lower direct.invariant
    have sameDirect : (calcReverse config calculate (calcDirect config calculate
        (calcShown config calculate state index) index) index index).dirDep =
          directIn config (outcomes.values config) index := by
      rw [selected.same, depends.same]
    obtain ⟨implied, weak⟩ := calcImplied_own isValue ranked lower reverse.invariant sameDirect
    unfold calcVisibility
    dsimp only
    rw [if_neg isValue]
    refine ⟨((shown.trans direct).trans reverse).trans implied, asked_single isValue _, ?_⟩
    rw [weak.same, selected.same, depends.same, seen.same]
    refine ⟨rfl, rfl, rfl, ?_, rfl, rfl⟩
    rw [if_neg isValue]

end Seen

end BuildLinux.Concrete.KconfigMemo
