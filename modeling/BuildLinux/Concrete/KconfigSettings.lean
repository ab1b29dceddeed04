/-
What the user's settings are after symbols have been read.

Every symbol that is read is set to its value, and the choices follow: a choice
has the highest value of those that were read for it, and remembers the one that
is `y`.
-/

import BuildLinux.Concrete.KconfigReread

namespace BuildLinux.Concrete.KconfigSettings

open CStrings KconfigExpr KconfigCalculation KconfigEquations KconfigFile KconfigReread

variable {entry : Type} [DecidableEq entry] {config : Config entry} {settings : Settings config}
  {index : entry}

/-! ### One symbol -/

theorem follow_single (single : config.choiceOf index = none) :
    settings.follow index = settings := by
  unfold Settings.follow
  split
  · rfl
  · next choice belongs => exact absurd (belongs.symm.trans single) (Option.some_ne_none choice)

/-- A choice follows one of its values, unless it is `y` and the value is `m`. -/
theorem follow_value {choice : entry} (belongs : config.choiceOf index = some choice)
    (fits : settings.user.tri index = .mod → settings.user.tri choice ≠ .yes) :
    (settings.follow index).set = settings.set ∧
      (settings.follow index).user.val = settings.user.val ∧
      (settings.follow index).user.tri = Function.update settings.user.tri choice
        ((settings.user.tri choice).or (settings.user.tri index)) ∧
      (settings.follow index).user.chosen =
        if settings.user.tri index = .yes then
          Function.update settings.user.chosen choice (some index)
        else settings.user.chosen := by
  unfold Settings.follow
  split
  next single => exact absurd (belongs.symm.trans single) (Option.some_ne_none choice)
  next other isOther =>
    cases belongs.symm.trans isOther
    cases tri : settings.user.tri index with
    | no => exact ⟨rfl, rfl, rfl, rfl⟩
    | mod =>
        dsimp only
        rw [if_neg (fits tri)]
        exact ⟨rfl, rfl, rfl, rfl⟩
    | yes => exact ⟨rfl, rfl, rfl, rfl⟩

/-! ### Symbols that have been read -/

/-- What has been read of these symbols. -/
structure Follows (values : Values entry) (symbols : List entry) (settings : Settings config) :
    Prop where
  set : ∀ index, settings.set index = true ↔ IsChoice config index ∨ index ∈ symbols
  tri : ∀ index, ¬IsChoice config index →
    settings.user.tri index = if index ∈ symbols then values.tri index else .no
  val : ∀ index, settings.user.val index =
    if index ∈ symbols ∧ ¬IsSwitch config index then values.val index else []
  above : ∀ value ∈ symbols, ∀ choice, config.choiceOf value = some choice →
    values.tri value ≤ settings.user.tri choice
  among : ∀ choice, IsChoice config choice → settings.user.tri choice = .no ∨
    ∃ value ∈ symbols, config.choiceOf value = some choice ∧
      settings.user.tri choice = values.tri value
  chosen : ∀ choice value, settings.user.chosen choice = some value ↔
    config.choiceOf value = some choice ∧ value ∈ symbols ∧ values.tri value = .yes

theorem follows_cleared (values : Values entry) :
    Follows values [] (cleared config) where
  set index := by
    unfold cleared
    simp
  tri _ _ := (if_neg List.not_mem_nil).symm
  val _ := (if_neg fun both => List.not_mem_nil both.1).symm
  above _ inNone := absurd inNone List.not_mem_nil
  among _ _ := Or.inl rfl
  chosen choice value := by
    unfold cleared
    simp

/-- Only one value of a choice is `y`, and then no other is `m`; only switches are set. -/
structure Fits (config : Config entry) (values : Values entry) : Prop where
  plain : ∀ index, ¬IsSwitch config index → values.tri index = .no
  one : ∀ first second choice, config.choiceOf first = some choice →
    config.choiceOf second = some choice → values.tri first = .yes →
    second = first ∨ values.tri second = .no

/-- A symbol that is set, before its choice follows. -/
theorem follows_set {values : Values entry} {symbols : List entry} (fits : Fits config values)
    (follows : Follows values symbols settings) (index : entry) :
    let read := if IsSwitch config index then settings.setTri index (values.tri index)
      else settings.setVal index (values.val index)
    read.set = Function.update settings.set index true ∧
      read.user.chosen = settings.user.chosen ∧
      (¬IsChoice config index →
        read.user.tri = Function.update settings.user.tri index (values.tri index)) ∧
      ∀ other, read.user.val other =
        if other ∈ symbols ++ [index] ∧ ¬IsSwitch config other then values.val other else [] := by
  by_cases isSwitch : IsSwitch config index
  · rw [if_pos isSwitch]
    refine ⟨rfl, rfl, fun _ => rfl, fun other => (follows.val other).trans ?_⟩
    by_cases isIndex : other = index
    · rw [isIndex, if_neg fun both => both.2 isSwitch, if_neg fun both => both.2 isSwitch]
    · simp [isIndex]
  · rw [if_neg isSwitch]
    refine ⟨rfl, rfl, fun single => ?_, fun other => ?_⟩
    · have unset : settings.user.tri index = values.tri index := by
        rw [follows.tri index single, fits.plain index isSwitch]
        split <;> rfl
      change settings.user.tri = _
      rw [← unset, Function.update_eq_self]
    · change Function.update settings.user.val index (values.val index) other = _
      by_cases isIndex : other = index
      · rw [isIndex, Function.update_self, if_pos]
        exact ⟨by simp, isSwitch⟩
      · rw [Function.update_of_ne isIndex, follows.val other]
        simp [isIndex]

omit [DecidableEq entry] in
theorem choice_of_value {value choice : entry} (belongs : config.choiceOf value = some choice) :
    IsChoice config choice := by
  obtain ⟨listed, isChoice⟩ := config.choiceNamed value choice belongs
  exact isChoice_of_values isChoice

/-- What is set when a symbol is read: the symbol, and the choice that it belongs to. -/
theorem assign_value {values : Values entry} {symbols : List entry} (fits : Fits config values)
    (follows : Follows values symbols settings) (single : ¬IsChoice config index) :
    let after := assign values settings index
    after.set = Function.update settings.set index true ∧
      (∀ other, ¬IsChoice config other → after.user.tri other =
        if other = index then values.tri index else settings.user.tri other) ∧
      (∀ other, IsChoice config other → after.user.tri other =
        if config.choiceOf index = some other then
          (settings.user.tri other).or (values.tri index) else settings.user.tri other) ∧
      (∀ other, after.user.chosen other =
        if config.choiceOf index = some other ∧ values.tri index = .yes then some index
        else settings.user.chosen other) ∧
      ∀ other, after.user.val other =
        if other ∈ symbols ++ [index] ∧ ¬IsSwitch config other then values.val other else [] := by
  obtain ⟨set, chosen, tri, val⟩ := follows_set fits follows index
  have tri := tri single
  unfold assign
  generalize (if IsSwitch config index then settings.setTri index (values.tri index)
    else settings.setVal index (values.val index)) = read at *
  have apart : ∀ other, IsChoice config other → other ≠ index :=
    fun other isChoice same => single (same ▸ isChoice)
  have triOther : ∀ other, other ≠ index → read.user.tri other = settings.user.tri other := by
    intro other different
    rw [tri, Function.update_of_ne different]
  have triIndex : read.user.tri index = values.tri index := by
    rw [tri, Function.update_self]
  cases belongs : config.choiceOf index with
  | none =>
      dsimp only
      rw [follow_single belongs]
      refine ⟨set, fun other _ => ?_, fun other isChoice => ?_, fun other => ?_, val⟩
      · by_cases same : other = index
        · rw [if_pos same, same, triIndex]
        · rw [if_neg same, triOther other same]
      · rw [if_neg (Option.some_ne_none other).symm, triOther other (apart other isChoice)]
      · rw [if_neg fun both => Option.some_ne_none other both.1.symm, chosen]
  | some choice =>
      have isChoice := choice_of_value belongs
      have noClash : read.user.tri index = .mod → read.user.tri choice ≠ .yes := by
        intro isMod isYes
        rw [triIndex] at isMod
        rw [triOther choice (apart choice isChoice)] at isYes
        rcases follows.among choice isChoice with isNo | ⟨value, _, isValue, same⟩
        · exact absurd (isNo.symm.trans isYes) (by decide)
        · rcases fits.one value index choice isValue belongs (same.symm.trans isYes) with
            isIndex | isNo
          · rw [isIndex, ← same, isYes] at isMod
            cases isMod
          · exact absurd (isNo.symm.trans isMod) (by decide)
      obtain ⟨followSet, followVal, followTri, followChosen⟩ := follow_value belongs noClash
      rw [triIndex] at followTri followChosen
      rw [triOther choice (apart choice isChoice)] at followTri
      refine ⟨followSet.trans set, fun other simple => ?_, fun other otherChoice => ?_,
        fun other => ?_, fun other => (congrFun followVal other).trans (val other)⟩
      · have different : other ≠ choice := fun same => simple (same ▸ isChoice)
        rw [followTri, Function.update_of_ne different]
        by_cases same : other = index
        · rw [if_pos same, same, triIndex]
        · rw [if_neg same, triOther other same]
      · rw [followTri]
        by_cases same : choice = other
        · rw [← same, Function.update_self, if_pos rfl]
        · rw [Function.update_of_ne (Ne.symm same), if_neg fun isOther =>
            same (Option.some.inj isOther), triOther other (apart other otherChoice)]
      · rw [followChosen, chosen]
        by_cases whole : values.tri index = .yes
        · rw [if_pos whole]
          by_cases same : choice = other
          · rw [← same, Function.update_self, if_pos ⟨rfl, whole⟩]
          · rw [Function.update_of_ne (Ne.symm same), if_neg fun both =>
              same (Option.some.inj both.1)]
        · rw [if_neg whole, if_neg fun both => whole both.2]

omit [DecidableEq entry] in
theorem le_or_left (left right : Tristate) : left ≤ left.or right := by
  cases left <;> cases right <;> decide

omit [DecidableEq entry] in
theorem le_or_right (left right : Tristate) : right ≤ left.or right := by
  cases left <;> cases right <;> decide

omit [DecidableEq entry] in
theorem or_eq (left right : Tristate) : left.or right = left ∨ left.or right = right := by
  cases left <;> cases right <;> decide

/-- What has been read, once another symbol is. -/
theorem assign_follows {values : Values entry} {symbols : List entry} (fits : Fits config values)
    (follows : Follows values symbols settings) (single : ¬IsChoice config index) :
    Follows values (symbols ++ [index]) (assign values settings index) := by
  obtain ⟨set, tri, choiceTri, chosen, val⟩ := assign_value fits follows single
  have member : ∀ other, other ∈ symbols ++ [index] ↔ other ∈ symbols ∨ other = index :=
    fun other => by rw [List.mem_append, List.mem_singleton]
  constructor
  · intro other
    rw [set, member]
    by_cases same : other = index
    · simp [same]
    · rw [Function.update_of_ne same, follows.set other]
      simp [same]
  · intro other simple
    rw [tri other simple]
    by_cases same : other = index
    · rw [if_pos same, if_pos ((member other).mpr (Or.inr same)), same]
    · rw [if_neg same, follows.tri other simple]
      simp [same]
  · exact val
  · intro value inSymbols choice belongs
    rw [choiceTri choice (choice_of_value belongs)]
    rcases (member value).mp inSymbols with earlier | same
    · have above := follows.above value earlier choice belongs
      split
      · exact le_trans above (le_or_left _ _)
      · exact above
    · rw [same] at belongs
      rw [if_pos belongs, same]
      exact le_or_right _ _
  · intro choice isChoice
    rw [choiceTri choice isChoice]
    have earlier : settings.user.tri choice = .no ∨ ∃ value ∈ symbols ++ [index],
        config.choiceOf value = some choice ∧ settings.user.tri choice = values.tri value :=
      (follows.among choice isChoice).imp_right fun ⟨value, inSymbols, rest⟩ =>
        ⟨value, List.mem_append_left _ inSymbols, rest⟩
    split
    next belongs =>
      rcases or_eq (settings.user.tri choice) (values.tri index) with same | same
      · rw [same]
        exact earlier
      · rw [same]
        exact Or.inr ⟨index, (member index).mpr (Or.inr rfl), belongs, rfl⟩
    next => exact earlier
  · intro choice value
    rw [chosen choice, member]
    split
    next picks =>
      constructor
      · intro same
        cases same
        exact ⟨picks.1, Or.inr rfl, picks.2⟩
      · intro ⟨belongs, _, whole⟩
        rcases fits.one index value choice picks.1 belongs picks.2 with same | isNo
        · rw [same]
        · exact absurd (isNo.symm.trans whole) (by decide)
    next other =>
      rw [follows.chosen choice value]
      constructor
      · intro ⟨belongs, inSymbols, whole⟩
        exact ⟨belongs, Or.inl inSymbols, whole⟩
      · intro ⟨belongs, inSymbols, whole⟩
        refine ⟨belongs, inSymbols.resolve_right fun same => ?_, whole⟩
        rw [same] at belongs whole
        exact other ⟨belongs, whole⟩

theorem assigns_follow {values : Values entry} (fits : Fits config values)
    {symbols read : List entry} (single : ∀ index ∈ symbols, ¬IsChoice config index)
    (follows : Follows values read settings) :
    Follows values (read ++ symbols) (symbols.foldl (assign values) settings) := by
  induction symbols generalizing read settings with
  | nil =>
      rw [List.append_nil]
      exact follows
  | cons index rest ih =>
      have next := ih (fun other inRest => single other (List.mem_cons_of_mem index inRest))
        (assign_follows fits follows (single index List.mem_cons_self))
      rw [List.append_assoc] at next
      exact next

end BuildLinux.Concrete.KconfigSettings
