/-
The calculation of one symbol, and of all of them.

A symbol ends with its outcome if those below it do, so the calculation solves the
equations between the outcomes, whatever symbols it is asked for.
-/

import BuildLinux.Concrete.KconfigChoices

namespace BuildLinux.Concrete.KconfigSolution

open CStrings NumberText RankedEquations KconfigExpr KconfigConditions KconfigCalculation KconfigValues
  KconfigEquations KconfigMemo KconfigChoices

variable {entry : Type}

section Own

variable [DecidableEq entry] {config : Config entry} {rank : entry → Nat}
  {defUser : entry → Bool} {done : entry → Prop} {outcomes : Outcomes entry}
  {state : State entry} {index : entry}
  {calculate : State entry → entry → State entry} (ranked : Ranked config rank)
  (lower : Lower config rank defUser done outcomes (rank index) calculate)
  (invariant : Invariant config rank defUser done outcomes (rank index) state)
  (asked : Asked config state index)

include ranked lower invariant asked

theorem calcDefault_own (single : ¬IsChoice config index) :
    let result := calcDefault config calculate state index
    Progress config rank defUser done outcomes index state result.1 ∧
      Alike (state index) (result.1 index) ∧
      result.2 = defaultValue config (outcomes.values config) index := by
  have modules : (outcomes.values config).modules = config.modules := rfl
  obtain ⟨first, found⟩ := firstVisible_spec lower modules invariant
    fun prop listed e isDep => depends_known ranked (defaultCondition_depends listed isDep)
  have alike := first.own asked
  unfold calcDefault defaultValue
  dsimp only
  rw [found]
  cases met : firstMet config (outcomes.values config) (config.defaults index) with
  | none => exact ⟨first.progress, alike, rfl⟩
  | some prop =>
      obtain ⟨dep, listed⟩ := firstMet_mem met
      have written := Progress.write first.invariant
      have askedThen := asked.later first.kept
      obtain ⟨step, _, value⟩ := calcExpr_spec lower modules written.invariant
        (depends_known ranked (defaultValue_depends listed single))
      refine ⟨(first.progress.trans written).trans step.progress,
        (alike.trans (write_alike _ index)).trans (step.own (askedThen.later written.kept)), ?_⟩
      dsimp only
      rw [value]

omit [DecidableEq entry] ranked lower invariant asked in
theorem finalValue_seen {values : Values entry} {before : Cell entry}
    (seen : Seen config values index before (state index)) (value : Tristate) :
    finalValue config state index value =
      (state, selectedValue (typeFor config index
        (visibleIn config values ((config.choiceOf index).map values.tri) index))
        (impliedIn config values index) (reverseIn config values index) value) := by
  unfold finalValue
  dsimp only
  rw [seen.visible, seen.implied, seen.revDep]

omit lower in
/-- A value of a choice looks at what its choice has picked. -/
theorem chosen_own :
    (∃ choice ∈ config.choiceOf index, (state choice).chosen = some index) ↔
      ∃ choice ∈ config.choiceOf index, (outcomes choice).chosen = some index := by
  have same : ∀ choice ∈ config.choiceOf index,
      (state choice).chosen = (outcomes choice).chosen := fun choice belongs =>
    (invariant.settled choice (ranked.choice index choice belongs)
      (asked choice belongs)).chosen
  constructor
  · intro ⟨choice, belongs, picks⟩
    exact ⟨choice, belongs, (same choice belongs).symm.trans picks⟩
  · intro ⟨choice, belongs, picks⟩
    exact ⟨choice, belongs, (same choice belongs).trans picks⟩

omit ranked lower asked in
/-- A symbol that is marked to be written, or is not. -/
theorem write_own (marks : Prop) [Decidable marks] :
    Progress config rank defUser done outcomes index state
        (if marks then state.write index else state) ∧
      Alike (state index) ((if marks then state.write index else state) index) ∧
      (marks → ((if marks then state.write index else state) index).write = true) := by
  split
  · exact ⟨Progress.write invariant, write_alike state index, fun _ => write_self state index⟩
  · rename_i unmarked
    exact ⟨Progress.refl invariant, Alike.refl _, fun marked => absurd marked unmarked⟩

theorem calcSwitch_own (user : User config) {before : Cell entry}
    (seen : Seen config (outcomes.values config) index before (state index))
    (fresh : before.defUser = defUser index) :
    let values := outcomes.values config
    let visible := visibleIn config values ((config.choiceOf index).map values.tri) index
    let result := calcSwitch config user calculate state index
    Progress config rank defUser done outcomes index state result.1 ∧
      Alike (state index) (result.1 index) ∧
      result.2 = switchValue config user defUser outcomes index visible
        (reverseIn config values index) (impliedIn config values index) ∧
      (visible ≠ .no ∨ reverseIn config values index ≠ .no →
        ¬(IsChoiceValue config index ∧ visible = .yes) → (result.1 index).write = true) := by
  have written := Progress.write invariant
  have writtenAlike := write_alike state index
  have flag : (state index).defUser = defUser index := seen.defUser.trans fresh
  unfold calcSwitch switchValue
  dsimp only
  rw [seen.visible, flag, seen.revDep]
  split
  · rename_i isValue
    exact ⟨Progress.refl invariant, Alike.refl _, congrArg Tristate.ofBool
      (decide_eq_decide.mpr (chosen_own ranked invariant asked)), fun _ other =>
        absurd isValue other⟩
  split
  · rw [finalValue_seen (seen.alike writtenAlike)]
    exact ⟨written, writtenAlike, rfl, fun _ _ => write_self state index⟩
  obtain ⟨marked, markedAlike, marks⟩ := write_own invariant
    (visibleIn config (outcomes.values config)
      ((config.choiceOf index).map (outcomes.values config).tri) index ≠ .no ∨
        reverseIn config (outcomes.values config) index ≠ .no)
  split
  · rw [finalValue_seen (seen.alike markedAlike)]
    exact ⟨marked, markedAlike, rfl, fun shows _ => marks shows⟩
  · rename_i single
    obtain ⟨default, defaultAlike, value⟩ := calcDefault_own ranked lower marked.invariant
      (asked.later marked.kept) single
    have alike := markedAlike.trans defaultAlike
    have weakly := (seen.alike alike).implied
    rw [weakly, value]
    split
    · have writtenThen := alike.trans (write_alike _ index)
      rw [finalValue_seen (seen.alike writtenThen)]
      exact ⟨(marked.trans default).trans (Progress.write default.invariant), writtenThen, rfl,
        fun _ _ => write_self _ index⟩
    · rw [finalValue_seen (seen.alike alike)]
      exact ⟨marked.trans default, alike, rfl, fun shows _ => defaultAlike.write (marks shows)⟩

/-! ### Texts -/

omit ranked asked in
theorem valOf_own {sym : Symbol entry}
    (known : KnownIn rank outcomes (rank index) (outcomes.values config) state (.symbol sym)) :
    Step config rank defUser done outcomes (rank index) state (calcSymbol calculate state sym) ∧
      (calcSymbol calculate state sym).valOf sym = valueText (outcomes.values config) sym := by
  obtain ⟨step, answers⟩ := calcSymbol_spec lower invariant
    (fun other (isOther : sym = .entry other) => known other (decide_eq_true isOther))
  refine ⟨step, ?_⟩
  cases sym with
  | yes => rfl
  | mod => rfl
  | no => rfl
  | entry other => exact (answers other rfl).val

theorem calcText_own (user : User config) (single : ¬IsChoice config index) {before : Cell entry}
    (seen : Seen config (outcomes.values config) index before (state index))
    (fresh : before.defUser = defUser index) :
    let values := outcomes.values config
    let visible := visibleIn config values ((config.choiceOf index).map values.tri) index
    let result := calcText config user calculate state index
    Progress config rank defUser done outcomes index state result.1 ∧
      Alike (state index) (result.1 index) ∧
      result.2 = textValue config user defUser values index visible ∧
      (visible ≠ .no → (result.1 index).write = true) := by
  have modules : (outcomes.values config).modules = config.modules := rfl
  have flag : (state index).defUser = defUser index := seen.defUser.trans fresh
  unfold calcText textValue
  dsimp only
  rw [seen.visible, flag]
  split
  · exact ⟨Progress.write invariant, write_alike state index, rfl, fun _ => write_self state index⟩
  obtain ⟨marked, markedAlike, marks⟩ := write_own invariant
    (visibleIn config (outcomes.values config)
      ((config.choiceOf index).map (outcomes.values config).tri) index ≠ .no)
  have markedAsked := asked.later marked.kept
  obtain ⟨first, found⟩ := firstVisible_spec lower modules marked.invariant
    fun prop listed e isDep => depends_known ranked (defaultCondition_depends listed isDep)
  have firstAlike := first.own markedAsked
  have alike := markedAlike.trans firstAlike
  have marksThen := fun shows => firstAlike.write (marks shows)
  rw [found]
  cases met : firstMet config (outcomes.values config) (config.defaults index) with
  | none => exact ⟨marked.trans first.progress, alike, rfl, marksThen⟩
  | some prop =>
      obtain ⟨e, visible⟩ := prop
      obtain ⟨dep, listed⟩ := firstMet_mem met
      cases e with
      | symbol sym =>
          have written := Progress.write first.invariant
          obtain ⟨step, text⟩ := valOf_own lower written.invariant
            (depends_known ranked (defaultValue_depends listed single))
          have last := (write_alike _ index).trans
            (step.own ((markedAsked.later first.kept).later written.kept))
          exact ⟨((marked.trans first.progress).trans written).trans step.progress,
            alike.trans last, text, fun shows => last.write (marksThen shows)⟩
      | not operand => exact ⟨marked.trans first.progress, alike, rfl, marksThen⟩
      | two type left right => exact ⟨marked.trans first.progress, alike, rfl, marksThen⟩
      | comp type left right => exact ⟨marked.trans first.progress, alike, rfl, marksThen⟩

/-! ### Ranges -/

omit ranked asked in
theorem rangeVal_own {sym : Symbol entry} (base : Nat)
    (known : KnownIn rank outcomes (rank index) (outcomes.values config) state (.symbol sym)) :
    let result := rangeVal config calculate state sym base
    Step config rank defUser done outcomes (rank index) state result.1 ∧
      result.2 = rangeBound config (outcomes.values config) base sym := by
  obtain ⟨step, text⟩ := valOf_own lower invariant known
  unfold rangeVal rangeBound
  dsimp only
  rw [text]
  exact ⟨step, rfl⟩

omit asked in
theorem violatedBound_own {prop : (Symbol entry × Symbol entry) × Option (Expr entry)}
    (listed : prop ∈ config.ranges index) (base : Nat) (value : Int) :
    let values := outcomes.values config
    let result := violatedBound config calculate state base value prop.1.1 prop.1.2
    Step config rank defUser done outcomes (rank index) state result.1 ∧
      result.2 = limited (rangeBound config values base prop.1.1)
        (rangeBound config values base prop.1.2) value := by
  obtain ⟨low, lowValue⟩ := rangeVal_own lower invariant base (rangeSymbols_known ranked listed).1
  obtain ⟨high, highValue⟩ := rangeVal_own lower low.invariant base (rangeSymbols_known ranked listed).2
  unfold violatedBound limited
  dsimp only at lowValue highValue ⊢
  rw [lowValue]
  split
  · rw [highValue]
    exact ⟨low.trans high, rfl⟩
  · exact ⟨low, rfl⟩

theorem validateRange_own :
    let text := rangedText config (outcomes.values config) index (state index).val
    let after := validateRange config calculate state index
    Progress config rank defUser done outcomes index state after ∧
      Alike { (state index) with val := text } (after index) := by
  have modules : (outcomes.values config).modules = config.modules := rfl
  unfold validateRange rangedText
  cases based : rangeBase (config.table.type index) with
  | none => exact ⟨Progress.refl invariant, Alike.refl _⟩
  | some base =>
      obtain ⟨first, found⟩ := firstVisible_spec lower modules invariant
        fun prop listed e isDep => depends_known ranked (rangeCondition_depends listed isDep)
      have alike := first.own asked
      dsimp only
      rw [found]
      cases met : firstMet config (outcomes.values config) (config.ranges index) with
      | none => exact ⟨first.progress, alike⟩
      | some prop =>
          obtain ⟨⟨left, right⟩, visible⟩ := prop
          obtain ⟨dep, listed⟩ := firstMet_mem met
          obtain ⟨bound, violated⟩ := violatedBound_own ranked lower first.invariant listed base
            (strtoll base (state index).val).value
          have alikeBound := alike.trans (bound.own (asked.later first.kept))
          dsimp only at violated ⊢
          have sameText : ((firstVisible config calculate state (config.ranges index)).1 index).val =
              (state index).val := by rw [alike.same]
          rw [sameText, violated]
          cases limited (rangeBound config (outcomes.values config) base left)
              (rangeBound config (outcomes.values config) base right)
              (strtoll base (state index).val).value with
          | none => exact ⟨first.progress.trans bound.progress, alikeBound⟩
          | some limit =>
              refine ⟨(first.progress.trans bound.progress).trans (Progress.change bound.invariant id
                (bound.invariant.apart index) fun _ _ => id), ?_⟩
              dsimp only
              rw [change_self]
              refine ⟨?_, alikeBound.write⟩
              rw [alikeBound.same]

omit [DecidableEq entry] ranked lower invariant asked in
theorem same_value {before after : Cell entry}
    (same : after = { before with write := after.write }) :
    after.tri = before.tri ∧ after.val = before.val ∧ after.chosen = before.chosen := by
  rw [same]
  exact ⟨rfl, rfl, rfl⟩

omit ranked lower asked in
theorem settle_own (tri : Tristate) (val : CString) :
    Progress config rank defUser done outcomes index state (state.settle index tri val) :=
  Progress.change invariant id (invariant.apart index) fun _ _ => id

omit ranked lower asked in
/-- Only the mark of the symbol may go, and only that of a symbol that is never written. -/
theorem unwrite_own :
    let after := unwrite config state index
    Progress config rank defUser done outcomes index state after ∧
      after index = { (state index) with write := (after index).write } ∧
      (config.auto index = false → after = state) ∧
      ∀ other, other ≠ index → after other = state other := by
  unfold unwrite
  split
  · rename_i isAuto
    refine ⟨Progress.change invariant id (invariant.apart index) fun _ plain => ?_, ?_,
      fun plain => ?_, fun other different => change_other state _ different⟩
    · exact absurd isAuto (by rw [plain]; exact Bool.false_ne_true)
    · rw [change_self]
    · exact absurd isAuto (by rw [plain]; exact Bool.false_ne_true)
  · exact ⟨Progress.refl invariant, rfl, fun _ => rfl, fun _ _ => rfl⟩

omit lower asked in
/-- The values of a choice are marked to be written. -/
theorem writeMembers_own {members : List entry}
    (belong : ∀ value ∈ members, config.choiceOf value = some index) :
    let after := members.foldl (fun marked value =>
      if (marked value).visible ≠ .no then marked.write value else marked) state
    Progress config rank defUser done outcomes index state after ∧ after index = state index := by
  induction members generalizing state with
  | nil => exact ⟨Progress.refl invariant, rfl⟩
  | cons value rest ih =>
      have below := ranked.choice value index (belong value List.mem_cons_self)
      have belongRest := fun other listed => belong other (List.mem_cons_of_mem value listed)
      rw [List.foldl_cons]
      split
      · have different : index ≠ value := fun same => absurd (congrArg rank same) (Nat.ne_of_lt below)
        have written : Progress config rank defUser done outcomes index state (state.write value) :=
          ⟨invariant.change (Nat.le_of_lt below) id (invariant.apart value) fun _ _ _ => rfl,
            kept_write state value⟩
        obtain ⟨later, same⟩ := ih written.invariant belongRest
        exact ⟨written.trans later, same.trans (change_other state _ different)⟩
      · exact ih invariant belongRest

omit ranked lower invariant asked in
theorem writeMembers_marks (members : List entry) (other : entry) (state : State entry) :
    let after := members.foldl (fun marked value =>
      if (marked value).visible ≠ .no then marked.write value else marked) state
    ((state other).write = true → (after other).write = true) ∧
      (other ∈ members → (state other).visible ≠ .no → (after other).write = true) := by
  induction members generalizing state with
  | nil => exact ⟨id, fun listed => absurd listed List.not_mem_nil⟩
  | cons value rest ih =>
      rw [List.foldl_cons]
      split
      next shown =>
        obtain ⟨keeps, marks⟩ := ih (state.write value)
        by_cases same : other = value
        · cases same
          have written := write_self state other
          exact ⟨fun _ => keeps written, fun _ _ => keeps written⟩
        · have unchanged : state.write value other = state other := change_other state _ same
          rw [unchanged] at keeps marks
          exact ⟨keeps, fun listed => marks ((List.mem_cons.mp listed).resolve_left same)⟩
      next hidden =>
        obtain ⟨keeps, marks⟩ := ih state
        refine ⟨keeps, fun listed shown => ?_⟩
        rcases List.mem_cons.mp listed with same | inRest
        · cases same
          exact absurd shown hidden
        · exact marks inRest shown

omit lower asked in
theorem writeValues_own {listed : List entry} (isChoice : config.choiceValues index = some listed) :
    Progress config rank defUser done outcomes index state (writeValues state index listed) ∧
      writeValues state index listed index = state index ∧
      ((state index).write = true → ∀ value, config.choiceOf value = some index →
        (state value).visible ≠ .no → (writeValues state index listed value).write = true) := by
  have ofListed := config.choiceListed index listed isChoice
  unfold writeValues
  split
  · obtain ⟨progress, same⟩ := writeMembers_own ranked invariant
      fun value isListed => (ofListed value).mp isListed
    exact ⟨progress, same, fun _ value belongs =>
      (writeMembers_marks listed value state).2 ((ofListed value).mpr belongs)⟩
  · rename_i unmarked
    exact ⟨Progress.refl invariant, rfl, fun marked => absurd marked unmarked⟩

omit asked in
/-- What a calculation of a symbol that is not valid leads to. -/
theorem calcVisibility_started :
    let after := calcVisibility config calculate (started config state index) index
    Progress config rank defUser done outcomes index state after ∧ Asked config after index ∧
      (after index).valid = true ∧
      ∃ before : Cell entry, before.defUser = (state index).defUser ∧
        Seen config (outcomes.values config) index before (after index) := by
  have begun : Progress config rank defUser done outcomes index state (started config state index) :=
    Progress.change invariant (fun _ => rfl) (invariant.apart index) fun isValue _ marked => by
      rw [marked, decide_eq_true isValue]
      rfl
  obtain ⟨shown, asked, seen⟩ := calcVisibility_own ranked lower begun.invariant
  have cell : started config state index index = { (state index) with
      valid := true, write := (state index).write && decide (IsChoiceValue config index) } :=
    change_self state index _
  refine ⟨begun.trans shown, asked, ?_, _, ?_, seen⟩
  · rw [seen.valid, cell]
  · rw [cell]

omit ranked lower invariant asked in
theorem seen_settle {values : Values entry} {before : Cell entry}
    (seen : Seen config values index before (state index)) (tri : Tristate) (val : CString) :
    Seen config values index before (state.settle index tri val index) := by
  unfold State.settle
  rw [change_self]
  exact ⟨seen.valid, seen.defUser, seen.visible, seen.dirDep, seen.revDep, seen.implied⟩

omit ranked lower invariant asked in
theorem settle_value (state : State entry) (index : entry) (tri : Tristate) (val : CString) :
    (state.settle index tri val index).tri = tri ∧ (state.settle index tri val index).val = val ∧
      (state.settle index tri val index).chosen = none ∧
      (state.settle index tri val index).write = (state index).write := by
  unfold State.settle
  rw [change_self]
  exact ⟨rfl, rfl, rfl, rfl⟩

/-- The end of the calculation of a text. -/
theorem finishText_own {before : Cell entry}
    (seen : Seen config (outcomes.values config) index before (state index)) :
    let text := rangedText config (outcomes.values config) index (state index).val
    let after := unwrite config (validateRange config calculate state index) index
    Progress config rank defUser done outcomes index state after ∧
      Seen config (outcomes.values config) index before (after index) ∧
      (after index).tri = (state index).tri ∧ (after index).val = text ∧
      (after index).chosen = (state index).chosen ∧
      (config.auto index = false → (state index).write = true → (after index).write = true) := by
  obtain ⟨ranged, limited⟩ := validateRange_own ranked lower invariant asked
  obtain ⟨last, unwritten, plainly, _⟩ := unwrite_own ranged.invariant
  have final := unwritten
  rw [limited.same] at final
  refine ⟨ranged.trans last, ?_, ?_, ?_, ?_, fun plain written => ?_⟩
  · rw [final]
    exact ⟨seen.valid, seen.defUser, seen.visible, seen.dirDep, seen.revDep, seen.implied⟩
  · rw [final]
  · rw [final]
  · rw [final]
  · rw [plainly plain]
    exact limited.write written

omit asked in
theorem calcTextSymbol_own (user : User config) (fresh : (state index).defUser = defUser index)
    (isText : IsText config index)
    (solves : outcomes index = outcome config user defUser outcomes index) :
    let after := calcTextSymbol config user calculate state index
    Progress config rank defUser done outcomes index state after ∧ Asked config after index ∧
      (after index).valid = true ∧ Settles config index (after index) (outcomes index) ∧
      (config.auto index = false → (outcomes index).visible ≠ .no →
        (after index).write = true) := by
  obtain ⟨shown, asked, isValid, before, flag, seen⟩ := calcVisibility_started ranked lower invariant
  unfold calcTextSymbol
  dsimp only
  generalize calcVisibility config calculate (started config state index) index = visible at *
  have cleared := settle_own shown.invariant .no []
  have seenCleared := seen_settle seen .no []
  obtain ⟨valued, alike, value, marks⟩ := calcText_own ranked lower cleared.invariant
    (asked.later cleared.kept) user isText.single seenCleared (flag.trans fresh)
  have seenValued := seenCleared.alike alike
  rw [value]
  generalize (calcText config user calculate (visible.settle index .no []) index).1 = valuedState
    at *
  generalize texted : textValue config user defUser (outcomes.values config) index _ = text at *
  have current := settle_own valued.invariant .no text
  have askedThen := ((asked.later cleared.kept).later valued.kept).later current.kept
  obtain ⟨noTri, same, noChosen, sameWrite⟩ := settle_value valuedState index .no text
  obtain ⟨last, seenLast, tri, val, chosen, keeps⟩ := finishText_own ranked lower current.invariant
    askedThen (seen_settle seenValued .no text)
  refine ⟨(((shown.trans cleared).trans valued).trans current).trans last,
    askedThen.later last.kept, seenLast.valid.trans (seen.valid.symm.trans isValid), ?_⟩
  rw [solves, outcome_text isText]
  exact ⟨⟨tri.trans noTri, val.trans (congrArg _ (same.trans texted.symm)),
    chosen.trans noChosen, fun _ =>
      ⟨seenLast.visible, seenLast.dirDep, seenLast.revDep, seenLast.implied⟩⟩,
    fun plain visible => keeps plain (sameWrite.trans (marks visible))⟩

omit lower in
/-- The values of a calculated choice are marked. -/
theorem finishMarks_own {listed : List entry} (isChoice : config.choiceValues index = some listed) :
    let after := unwrite config (writeValues state index listed) index
    Progress config rank defUser done outcomes index state after ∧ Asked config after index ∧
      after index = { (state index) with write := (after index).write } ∧
      (config.auto index = false → after index = state index) ∧
      ((state index).write = true → ∀ value, config.choiceOf value = some index →
        (state value).visible ≠ .no → (after value).write = true) := by
  obtain ⟨marked, same, marks⟩ := writeValues_own ranked invariant isChoice
  obtain ⟨last, unmarked, plainly, others⟩ := unwrite_own marked.invariant
  rw [same] at unmarked
  refine ⟨marked.trans last, (asked.later marked.kept).later last.kept, unmarked,
    fun plain => ?_, fun written value belongs shown => ?_⟩
  · rw [plainly plain]
    exact same
  · rw [others value (member_apart (choice_single isChoice) belongs)]
    exact marks written value belongs shown

/-- The end of the calculation of a choice. -/
theorem finishChoice_own (user : User config) {before : Cell entry} {listed : List entry}
    (isChoice : config.choiceValues index = some listed)
    (seen : Seen config (outcomes.values config) index before (state index))
    (isValid : (state index).valid = true) {tri : Tristate} (sameTri : (state index).tri = tri)
    (val : (state index).val = "n".toList) (chosen : (state index).chosen = none) :
    let values := outcomes.values config
    let visible := visibleIn config values ((config.choiceOf index).map values.tri) index
    let dirDep := if IsChoiceValue config index then .no else directIn config values index
    let picks := if tri = .yes then picked config user values index listed else none
    let called := if tri = .yes then calcChoice config user calculate state index listed else state
    let after := unwrite config (writeValues called index listed) index
    Progress config rank defUser done outcomes index state after ∧ Asked config after index ∧
      (after index).valid = true ∧ Settles config index (after index)
        ⟨if tri = .yes ∧ picks = none then .no else tri, "n".toList, picks, visible, dirDep,
          reverseIn config values index, impliedIn config values index⟩ ∧
      ((state index).write = true → (config.auto index = false → (after index).write = true) ∧
        (tri = .yes → ∀ value, config.choiceOf value = some index →
          visibleIn config (picking values index) (some .yes) value ≠ .no →
            (after value).write = true)) := by
  dsimp only
  by_cases whole : tri = .yes
  · obtain ⟨called, alike, shown⟩ := calcChoice_spec ranked user lower invariant
      ⟨isValid, sameTri.trans whole, val⟩ isChoice
    obtain ⟨last, askedLast, final, plainly, marks⟩ := finishMarks_own ranked called.invariant
      (asked.later called.kept) isChoice
    rw [alike.same] at final
    rw [if_pos whole, if_pos whole]
    refine ⟨called.trans last, askedLast, ?_, ?_, fun written => ⟨fun plain => ?_,
      fun _ value belongs isShown => marks (alike.write written) value belongs ?_⟩⟩
    · rw [final]
      exact isValid
    · rw [final]
      refine ⟨?_, val, rfl, fun _ => ⟨seen.visible, seen.dirDep, seen.revDep, seen.implied⟩⟩
      rw [whole]
      simp only [true_and]
    · rw [plainly plain]
      exact alike.write written
    · rw [shown value belongs]
      exact isShown
  · obtain ⟨last, askedLast, final, plainly, _⟩ := finishMarks_own ranked invariant asked isChoice
    have seenLast := seen.same final
    obtain ⟨keptTri, keptVal, keptChosen⟩ := same_value final
    rw [if_neg whole, if_neg whole]
    refine ⟨last, askedLast, ?_, ?_, fun written => ⟨fun plain => ?_, fun isWhole =>
      absurd isWhole whole⟩⟩
    · exact seenLast.valid.trans (seen.valid.symm.trans isValid)
    · rw [if_neg fun both => whole both.1]
      exact ⟨keptTri.trans sameTri, keptVal.trans val, keptChosen.trans chosen, fun _ =>
        ⟨seenLast.visible, seenLast.dirDep, seenLast.revDep, seenLast.implied⟩⟩
    · rw [plainly plain]
      exact written

omit ranked lower invariant asked in
/-- A choice that is set is shown, or selected. -/
theorem switchValue_shown {user : User config} (isChoice : IsChoice config index)
    (single : ¬IsChoiceValue config index) {visible revDep implied : Tristate}
    (set : switchValue config user defUser outcomes index visible revDep implied ≠ .no) :
    visible ≠ .no ∨ revDep ≠ .no := by
  by_cases hidden : visible = .no
  · refine Or.inr fun unselected => set ?_
    unfold switchValue
    dsimp only
    rw [if_neg fun both => single both.1, if_neg fun both => both.1 hidden, if_pos isChoice,
      unselected]
    rfl
  · exact Or.inl hidden

omit lower in
/-- A value that its choice has marked stays marked, and other symbols are marked by themselves. -/
theorem marked_own (shows : Shows config outcomes index) {valued : Cell entry}
    (keeps : (state index).write = true → valued.write = true)
    (marks : ¬(IsChoiceValue config index ∧ (outcomes index).visible = .yes) →
      valued.write = true) :
    valued.write = true ∨ done index := by
  by_cases isWhole : IsChoiceValue config index ∧ (outcomes index).visible = .yes
  · obtain ⟨choice, belongs⟩ := Option.ne_none_iff_exists'.mp isWhole.1
    have marked := invariant.members index choice belongs (ranked.choice index choice belongs)
      (asked choice belongs) (shows.whole choice belongs isWhole.2) shows
    exact marked.imp_left keeps
  · exact Or.inl (marks isWhole)

omit asked in
theorem calcSwitchSymbol_own (user : User config) (fresh : (state index).defUser = defUser index)
    (isSwitch : IsSwitch config index) (solves : Solves config user defUser outcomes) :
    let after := calcSwitchSymbol config user calculate state index
    Progress config rank defUser done outcomes index state after ∧ Asked config after index ∧
      (after index).valid = true ∧ Settles config index (after index) (outcomes index) ∧
      (Shows config outcomes index → Marked done after index) ∧
      ((outcomes index).tri = .yes → ∀ value, config.choiceOf value = some index →
        Shows config outcomes value → (after value).write = true) := by
  obtain ⟨shown, asked, isValid, before, flag, seen⟩ := calcVisibility_started ranked lower invariant
  unfold calcSwitchSymbol
  dsimp only
  generalize calcVisibility config calculate (started config state index) index = visible at *
  have cleared := settle_own shown.invariant .no "n".toList
  have seenCleared := seen_settle seen .no "n".toList
  obtain ⟨valued, alike, value, marks⟩ := calcSwitch_own ranked lower cleared.invariant
    (asked.later cleared.kept) user seenCleared (flag.trans fresh)
  have seenValued := seenCleared.alike alike
  have sameVisible : (outcomes index).visible = visibleIn config (outcomes.values config)
      ((config.choiceOf index).map (outcomes.values config).tri) index := by
    rw [solves index]
    exact outcome_visible isSwitch.hasVisibility
  rw [← sameVisible] at value marks
  rw [value]
  generalize (calcSwitch config user calculate (visible.settle index .no "n".toList) index).1 =
    valuedState at *
  have solved := (solves index).trans (outcome_switch isSwitch)
  dsimp only at solved
  rw [← sameVisible] at solved
  generalize switched : switchValue config user defUser outcomes index _ _ _ = tri at *
  have current := settle_own valued.invariant tri "n".toList
  have progress := ((shown.trans cleared).trans valued).trans current
  have askedThen := ((asked.later cleared.kept).later valued.kept).later current.kept
  have seenCurrent := seen_settle seenValued tri "n".toList
  obtain ⟨sameTri, sameVal, noChosen, sameWrite⟩ := settle_value valuedState index tri
    "n".toList
  have validThen := seenCurrent.valid.trans (seen.valid.symm.trans isValid)
  have ownMark : Shows config outcomes index →
      Marked done (valuedState.settle index tri "n".toList) index := fun shows => by
    unfold Marked
    rw [sameWrite]
    exact marked_own ranked shown.invariant asked shows
      (fun written => alike.write ((settle_value visible index .no _).2.2.2.trans written))
      (marks (Or.inl shows.visible))
  cases isChoice : config.choiceValues index with
  | none =>
      obtain ⟨last, final, plainly, _⟩ := unwrite_own current.invariant
      have seenLast := seenCurrent.same final
      obtain ⟨keptTri, keptVal, keptChosen⟩ := same_value final
      rw [isChoice] at solved
      refine ⟨progress.trans last, askedThen.later last.kept,
        seenLast.valid.trans (seen.valid.symm.trans isValid), ?_, fun shows => ?_,
        fun _ value belongs => ?_⟩
      · rw [solved]
        exact ⟨keptTri.trans sameTri, keptVal.trans sameVal, keptChosen.trans noChosen, fun _ =>
          ⟨seenLast.visible.trans sameVisible.symm, seenLast.dirDep, seenLast.revDep,
            seenLast.implied⟩⟩
      · dsimp only
        rw [plainly shows.plain]
        exact ownMark shows
      · obtain ⟨listed, isListed⟩ := config.choiceNamed value index belongs
        exact absurd (isListed.symm.trans isChoice) (Option.some_ne_none listed)
  | some listed =>
      obtain ⟨last, askedLast, validLast, settles, keeps⟩ := finishChoice_own ranked lower
        current.invariant askedThen user isChoice seenCurrent validThen sameTri sameVal noChosen
      have single := choice_single isChoice
      rw [isChoice] at solved
      dsimp only at solved settles
      rw [← sameVisible, ← solved] at settles
      refine ⟨progress.trans last, askedLast, validLast, settles, fun shows => ?_,
        fun whole value belongs shows => ?_⟩
      · exact (ownMark shows).imp_left fun written => (keeps written).1 shows.plain
      · have solvedTri := congrArg Outcome.tri solved
        have solvedVal := congrArg Outcome.val solved
        dsimp only at solvedTri solvedVal
        rw [whole] at solvedTri
        obtain ⟨before, _⟩ := reset_yes solvedTri.symm
        have isSet : tri ≠ .no := by rw [before]; decide
        have written := marks (switchValue_shown (by unfold IsChoice; rw [isChoice]; simp) single
          (by rw [switched]; exact isSet)) fun both => single both.1
        refine (keeps (sameWrite.trans written)).2 before value belongs ?_
        rw [picking_self (show (outcomes.values config).tri index = .yes from whole) solvedVal]
        have visible := shows.visible
        rw [solves value, outcome_visible shows.hasVisibility, belongs] at visible
        dsimp only [Option.map_some] at visible
        rw [show (outcomes.values config).tri index = .yes from whole] at visible
        exact visible

end Own

/-! ### All symbols -/

section All

variable [DecidableEq entry] {config : Config entry} {rank : entry → Nat}
  {defUser : entry → Bool} {done : entry → Prop} {outcomes : Outcomes entry}
  {before after state : State entry} {index : entry} {bound : Nat}

/-- A symbol that has been calculated, and what it was calculated from. -/
structure Finished (config : Config entry) (done : entry → Prop) (outcomes : Outcomes entry)
    (index : entry) (state : State entry) : Prop where
  valid : (state index).valid = true
  asked : HasVisibility config index → Asked config state index
  settles : Settles config index (state index) (outcomes index)
  marked : Shows config outcomes index → Marked done state index
  members : ∀ value, config.choiceOf value = some index → (outcomes index).tri = .yes →
    Shows config outcomes value → Marked done state value

variable (ranked : Ranked config rank)

include ranked

/-- The invariant above a symbol, once the symbol has been calculated. -/
theorem Invariant.finish (invariant : Invariant config rank defUser done outcomes bound before)
    (wasInvalid : (before index).valid = false)
    (progress : Progress config rank defUser done outcomes index before after)
    (finished : Finished config done outcomes index after) :
    Invariant config rank defUser done outcomes bound after := by
  have notOwn : ∀ other, other ≠ index → some index ≠ some other :=
    fun other different same => different (Option.some.inj same).symm
  have cell : ∀ other, rank index ≤ rank other → other ≠ index →
      after other = { (before other) with
        visible := (after other).visible, write := (after other).write } :=
    fun other above different => progress.kept.rest other above (notOwn other different)
  have sameValid : ∀ other, rank index ≤ rank other → other ≠ index →
      (after other).valid = (before other).valid := by
    intro other above different
    rw [cell other above different]
  -- The visibility of a valid symbol stays, because its choice was valid before.
  have sameVisible : ∀ other, rank index ≤ rank other → other ≠ index → rank other < bound →
      HasVisibility config other → (before other).valid = true →
        (after other).visible = (before other).visible := by
    intro other above different below hasVisibility isValid
    rcases progress.kept.visible other above (notOwn other different) with
      same | ⟨choice, belongs, changed⟩
    · exact same
    · have choiceValid := invariant.choice other choice belongs hasVisibility below isValid
      rcases changed with isOwn | ⟨_, choiceInvalid, _⟩
      · cases isOwn
        exact absurd choiceValid (by rw [wasInvalid]; exact Bool.false_ne_true)
      · exact absurd choiceValid (by rw [choiceInvalid]; exact Bool.false_ne_true)
  constructor
  · intro other below isValid
    rcases Nat.lt_or_ge (rank other) (rank index) with under | above
    · exact progress.invariant.settled other under isValid
    by_cases same : other = index
    · cases same
      exact finished.settles
    · have wasValid := (sameValid other above same).symm.trans isValid
      have settles := invariant.settled other below wasValid
      rw [cell other above same]
      refine ⟨settles.tri, settles.val, settles.chosen, fun hasVisibility => ?_⟩
      obtain ⟨visible, rest⟩ := settles.known hasVisibility
      exact ⟨(sameVisible other above same below hasVisibility wasValid).trans visible, rest⟩
  · intro value choice belongs hasVisibility below isValid
    rcases Nat.lt_or_ge (rank value) (rank index) with under | above
    · exact progress.invariant.choice value choice belongs hasVisibility under isValid
    by_cases same : value = index
    · cases same
      exact finished.asked hasVisibility choice belongs
    · have wasValid := (sameValid value above same).symm.trans isValid
      exact progress.kept.valid choice
        (invariant.choice value choice belongs hasVisibility below wasValid)
  · intro other below isInvalid
    rcases Nat.lt_or_ge (rank other) (rank index) with under | above
    · exact progress.invariant.user other under isInvalid
    by_cases same : other = index
    · cases same
      exact absurd finished.valid (by rw [isInvalid]; exact Bool.false_ne_true)
    · rw [cell other above same]
      exact invariant.user other below ((sameValid other above same).symm.trans isInvalid)
  · exact progress.invariant.apart
  · intro other below isValid shows
    rcases Nat.lt_or_ge (rank other) (rank index) with under | above
    · exact progress.invariant.marked other under isValid shows
    by_cases same : other = index
    · cases same
      exact finished.marked shows
    · exact (invariant.marked other below ((sameValid other above same).symm.trans isValid)
        shows).imp_left (progress.kept.write other above (notOwn other same))
  · intro value choice belongs below isValid whole shows
    rcases Nat.lt_or_ge (rank choice) (rank index) with under | above
    · exact progress.invariant.members value choice belongs under isValid whole shows
    by_cases isChoice : choice = index
    · cases isChoice
      exact finished.members value belongs whole shows
    by_cases same : value = index
    · cases same
      exact finished.marked shows
    · have valueAbove := Nat.le_trans above (Nat.le_of_lt (ranked.choice value choice belongs))
      exact (invariant.members value choice belongs below
        ((sameValid choice above isChoice).symm.trans isValid) whole shows).imp_left
          (progress.kept.write value valueAbove (notOwn value same))

variable (user : User config) (solves : Solves config user defUser outcomes)

include solves

/-- The calculation of a symbol, where that of the symbols below it works. -/
theorem symCalcValue_own {fuel : Nat}
    (lower : Lower config rank defUser done outcomes (rank index) (symCalcValue config user fuel))
    (invariant : Invariant config rank defUser done outcomes (rank index) state)
    (fresh : (state index).defUser = defUser index) (wasInvalid : (state index).valid = false) :
    let after := symCalcValue config user (fuel + 1) state index
    Progress config rank defUser done outcomes index state after ∧
      Finished config done outcomes index after := by
  have switch (isSwitch : IsSwitch config index) :
      Progress config rank defUser done outcomes index state
          (calcSwitchSymbol config user (symCalcValue config user fuel) state index) ∧
        Finished config done outcomes index
          (calcSwitchSymbol config user (symCalcValue config user fuel) state index) := by
    obtain ⟨progress, asked, isValid, settles, marked, members⟩ :=
      calcSwitchSymbol_own ranked lower invariant user fresh isSwitch solves
    exact ⟨progress, isValid, fun _ => asked, settles, marked, fun value belongs whole shows =>
      Or.inl (members whole value belongs shows)⟩
  have text (isText : IsText config index) :
      Progress config rank defUser done outcomes index state
          (calcTextSymbol config user (symCalcValue config user fuel) state index) ∧
        Finished config done outcomes index
          (calcTextSymbol config user (symCalcValue config user fuel) state index) := by
    obtain ⟨progress, asked, isValid, settles, marked⟩ :=
      calcTextSymbol_own ranked lower invariant user fresh isText (solves index)
    exact ⟨progress, isValid, fun _ => asked, settles,
      fun shows => Or.inl (marked shows.plain shows.visible),
      fun value belongs => absurd isText (owner_switch belongs).not_text⟩
  have named (rest : ¬HasVisibility config index) :
      Progress config rank defUser done outcomes index state (state.change index fun cell =>
          { cell with valid := true, tri := .no, val := config.table.name index, chosen := none }) ∧
        Finished config done outcomes index (state.change index fun cell =>
          { cell with valid := true, tri := .no, val := config.table.name index, chosen := none }) := by
    refine ⟨Progress.change invariant (fun _ => rfl) (invariant.apart index) fun _ _ => id, ?_,
      fun hasVisibility => absurd hasVisibility rest, ?_,
      fun shows => absurd shows.hasVisibility rest,
      fun value belongs => absurd (owner_switch belongs).hasVisibility rest⟩
    · rw [change_self]
    · rw [change_self, solves index, outcome_rest rest]
      exact ⟨rfl, rfl, rfl, fun hasVisibility => absurd hasVisibility rest⟩
  unfold symCalcValue
  dsimp only
  rw [if_neg (by rw [wasInvalid]; exact Bool.false_ne_true)]
  cases type : config.table.type index with
  | boolean => exact switch (Or.inl type)
  | tristate => exact switch (Or.inr type)
  | int => exact text (Or.inl type)
  | hex => exact text (Or.inr (Or.inl type))
  | string => exact text (Or.inr (Or.inr type))
  | unknown => exact named fun hasVisibility => hasVisibility.1 type
  | other => exact named fun hasVisibility => hasVisibility.2 type

theorem symCalcValue_lower (fuel : Nat) : ∀ bound ≤ fuel,
    Lower config rank defUser done outcomes bound (symCalcValue config user fuel) := by
  have again : ∀ fuel (state : State entry) index, (state index).valid = true →
      symCalcValue config user fuel state index = state := by
    intro fuel state index isValid
    cases fuel with
    | zero => rfl
    | succ fuel =>
        unfold symCalcValue
        rw [if_pos isValid]
  induction fuel with
  | zero =>
      intro bound atMost
      exact ⟨fun index below => absurd below (by omega), again 0⟩
  | succ fuel ih =>
      intro bound atMost
      refine ⟨fun index below state invariant => ?_, again (fuel + 1)⟩
      cases valid : (state index).valid with
      | true =>
          rw [again (fuel + 1) state index valid]
          exact ⟨invariant, Kept.refl state, valid⟩
      | false =>
          have lower := ih (rank index) (by omega)
          obtain ⟨progress, finished⟩ := symCalcValue_own ranked user solves lower
            (invariant.lower (Nat.le_of_lt below)) (invariant.user index below valid) valid
          exact ⟨Invariant.finish ranked invariant valid progress finished,
            (progress.kept.close valid finished.valid).raise below, finished.valid⟩

/-- Symbols that are asked for in some order, each with those below it. -/
theorem foldl_own {fuel : Nat} (within : ∀ index, rank index < fuel) {order : List entry}
    (invariant : Invariant config rank defUser done outcomes fuel state) :
    let after := order.foldl (symCalcValue config user fuel) state
    Invariant config rank defUser done outcomes fuel after ∧
      (∀ index, (state index).valid = true → (after index).valid = true) ∧
      ∀ index ∈ order, (after index).valid = true := by
  induction order generalizing state with
  | nil => exact ⟨invariant, fun _ => id, fun index listed => absurd listed List.not_mem_nil⟩
  | cons first rest ih =>
      obtain ⟨invariantThen, kept, valid⟩ :=
        (symCalcValue_lower ranked user solves fuel fuel (Nat.le_refl _)).works first
          (within first) state invariant
      obtain ⟨invariantAfter, validAfter, validRest⟩ := ih invariantThen
      refine ⟨invariantAfter, fun index isValid => validAfter index (kept.valid index isValid),
        fun index listed => ?_⟩
      rcases List.mem_cons.mp listed with same | inRest
      · cases same
        exact validAfter _ valid
      · exact validRest index inRest

end All

/-! ### The calculation after everything has been cleared -/

/-- No symbol is valid: `sym_clear_all_valid`. -/
structure Cleared (config : Config entry) (defUser : entry → Bool) (state : State entry) :
    Prop where
  invalid : ∀ index, (state index).valid = false
  user : ∀ index, (state index).defUser = defUser index
  apart : ∀ value, IsChoiceValue config value →
    (state value).dirDep = .no ∧ (state value).revDep = .no ∧ (state value).implied = .no

theorem Cleared.invariant {config : Config entry} {rank : entry → Nat} {defUser : entry → Bool}
    {outcomes : Outcomes entry} {state : State entry} (cleared : Cleared config defUser state)
    (done : entry → Prop) (bound : Nat) : Invariant config rank defUser done outcomes bound state where
  settled index _ isValid :=
    absurd isValid (by rw [cleared.invalid index]; exact Bool.false_ne_true)
  choice value choice _ _ _ isValid :=
    absurd isValid (by rw [cleared.invalid value]; exact Bool.false_ne_true)
  user index _ _ := cleared.user index
  apart := cleared.apart
  marked index _ isValid :=
    absurd isValid (by rw [cleared.invalid index]; exact Bool.false_ne_true)
  members value choice _ _ isValid :=
    absurd isValid (by rw [cleared.invalid choice]; exact Bool.false_ne_true)

theorem solution_settles [DecidableEq entry] {config : Config entry} {rank : entry → Nat}
    (ranked : Ranked config rank) {fuel : Nat} (within : ∀ index, rank index < fuel)
    {user : User config} {defUser : entry → Bool} {outcomes : Outcomes entry}
    (solves : Solves config user defUser outcomes) {state : State entry}
    (cleared : Cleared config defUser state) {order : List entry} {index : entry}
    (listed : index ∈ order) :
    let after := order.foldl (symCalcValue config user fuel) state
    (after index).valid = true ∧ Settles config index (after index) (outcomes index) := by
  obtain ⟨invariant, _, valid⟩ := foldl_own ranked user solves within
    (cleared.invariant (fun _ => False) fuel)
  exact ⟨valid index listed, invariant.settled index (within index) (valid index listed)⟩

/-- Whatever symbols are asked for, in whatever order, they get the values that solve the
equations. -/
theorem calculation_settles [DecidableEq entry] {config : Config entry} {rank : entry → Nat}
    (ranked : Ranked config rank) {fuel : Nat} (within : ∀ index, rank index < fuel)
    (user : User config) {defUser : entry → Bool} {state : State entry}
    (cleared : Cleared config defUser state) :
    ∃ outcomes, Solves config user defUser outcomes ∧
      ∀ (order : List entry) (index : entry), index ∈ order →
        let after := order.foldl (symCalcValue config user fuel) state
        (after index).valid = true ∧ Settles config index (after index) (outcomes index) := by
  have descends := outcome_descends ranked user defUser
  let start : Outcomes entry := fun _ => ⟨.no, [], none, .no, .no, .no, .no⟩
  have solves := solution_solves descends start
  exact ⟨_, solves, fun order index listed =>
    solution_settles ranked within solves cleared listed⟩

/-- There is nothing else that solves the equations. -/
theorem calculation_solves [DecidableEq entry] {config : Config entry} {rank : entry → Nat}
    (ranked : Ranked config rank) {fuel : Nat} (within : ∀ index, rank index < fuel)
    (user : User config) {defUser : entry → Bool} {state : State entry}
    (cleared : Cleared config defUser state) :
    ∃ outcomes, Solves config user defUser outcomes ∧
      (∀ others, Solves config user defUser others → others = outcomes) ∧
      ∀ (order : List entry) (index : entry), index ∈ order →
        let after := order.foldl (symCalcValue config user fuel) state
        (after index).valid = true ∧ Settles config index (after index) (outcomes index) := by
  obtain ⟨outcomes, solves, settles⟩ := calculation_settles ranked within user cleared
  exact ⟨outcomes, solves,
    fun others otherSolves =>
      solution_unique (outcome_descends ranked user defUser) otherSolves solves,
    settles⟩

/-! ### A board with a choice of its speed -/

inductive Board where
  | modules
  | bus
  | speed
  | fast
  | slow
  | clock
  | spare
  | least
  | most
  deriving DecidableEq

def boardTable : SymbolTable Board where
  type
    | .clock => .int
    | .spare => .int
    | .least => .unknown
    | .most => .unknown
    | _ => .boolean
  name
    | .modules => "MODULES".toList
    | .bus => "BUS".toList
    | .speed => []
    | .fast => "FAST".toList
    | .slow => "SLOW".toList
    | .clock => "CLOCK".toList
    | .spare => "SPARE".toList
    | .least => "10".toList
    | .most => "200".toList
  const
    | .least => true
    | .most => true
    | _ => false
  constUntyped index isConst := by
    cases index <;> first | rfl | cases isConst
  constName left right leftConst rightConst same := by
    cases left <;> cases leftConst <;> cases right <;> cases rightConst <;>
      first | rfl | exact absurd same (by decide)
  constListed index isConst := by
    cases index <;> cases isConst <;> decide
  noOther index := by cases index <;> decide

/-- The fast value needs the bus, the clock is limited with it, and the spare clock is not seen. -/
def boardConfig : Config Board where
  table := boardTable
  modulesSym := some .modules
  modules := .no
  prompts
    | .fast => [some (.two .and (.symbol (.entry .speed)) (.symbol (.entry .bus)))]
    | .slow => [some (.symbol (.entry .speed))]
    | .spare => [some (.symbol .no)]
    | .least => []
    | .most => []
    | _ => [none]
  defaults _ := []
  ranges
    | .clock => [((.entry .least, .entry .most), some (.symbol (.entry .bus)))]
    | _ => []
  dirDep _ := none
  revDep
    | .speed => some (.symbol .mod)
    | _ => none
  implied _ := none
  choiceValues
    | .speed => some [.fast, .slow]
    | _ => none
  choiceOf
    | .fast => some .speed
    | .slow => some .speed
    | _ => none
  auto _ := false
  choiceListed choice listed isChoice value := by
    cases choice <;> cases isChoice
    cases value <;> decide
  choiceNamed value choice isValue := by
    cases value <;> cases isValue <;> exact ⟨_, rfl⟩
  choiceSwitch choice listed isChoice := by
    cases choice <;> cases isChoice
    exact Or.inl rfl
  choiceApart choice listed isChoice := by
    cases choice <;> cases isChoice
    rfl
  choiceDefaults _ _ _ _ isDefault := absurd isDefault List.not_mem_nil

def boardRank : Board → Nat
  | .bus => 1
  | .speed => 2
  | .fast => 3
  | .slow => 3
  | .clock => 2
  | _ => 0

theorem boardRanked : Ranked boardConfig boardRank where
  dependency index e depends other contained := by
    cases index <;> simp [dependencies, boardConfig, IsChoice] at depends
    · cases depends
      simp [exprContainsSymbol] at contained
    · rcases depends with same | same | same <;> cases same <;>
        simp [exprContainsSymbol] at contained <;> cases contained <;> decide
  prompt index e listed other contained := by
    cases index <;> cases other <;> simp [boardConfig] at listed <;> subst listed <;>
      simp [exprContainsSymbol, boardConfig, boardRank, owner] at contained ⊢
  choice value choice belongs := by
    cases value <;> cases belongs <;> decide
  asked value choice belongs := by
    cases value <;> cases belongs <;> refine ⟨List.cons_ne_nil _ _, fun prompt listed => ?_⟩ <;>
      cases List.mem_singleton.mp listed <;> exact ⟨_, rfl, rfl⟩

theorem boardRank_lt (index : Board) : boardRank index < 4 := by
  cases index <;> decide

/-- The user has the bus, wants the fast value, and a clock that is too low. -/
def boardUser : User boardConfig where
  tri _ := .yes
  val
    | .clock => "5".toList
    | _ => []
  chosen
    | .speed => some .fast
    | _ => none
  chosenListed choice value remembered := by
    cases choice <;> cases remembered
    rfl

def boardCell (defUser : Bool) : Cell Board :=
  ⟨false, .no, [], none, .no, .no, .no, .no, false, defUser⟩

def boardSet (index : Board) : Bool := decide (index = .bus ∨ index = .clock)

def boardState : State Board := fun index => boardCell (boardSet index)

theorem boardCleared : Cleared boardConfig boardSet boardState :=
  ⟨fun _ => rfl, fun _ => rfl, fun _ _ => ⟨rfl, rfl, rfl⟩⟩

theorem calculation_solves_board :
    ∃ outcomes, Solves boardConfig boardUser boardSet outcomes ∧
      (∀ others, Solves boardConfig boardUser boardSet others → others = outcomes) ∧
      ∀ (order : List Board) (index : Board), index ∈ order →
        let after := order.foldl (symCalcValue boardConfig boardUser 4) boardState
        (after index).valid = true ∧ Settles boardConfig index (after index) (outcomes index) :=
  calculation_solves boardRanked boardRank_lt boardUser boardCleared

example : [Board.slow, .clock, .fast].map (fun index =>
    let after := [Board.slow, .clock, .fast].foldl (symCalcValue boardConfig boardUser 4) boardState
    ((after index).tri, (after index).val)) =
      [(.no, "n".toList), (.no, "10".toList), (.yes, "n".toList)] := by decide

end BuildLinux.Concrete.KconfigSolution
