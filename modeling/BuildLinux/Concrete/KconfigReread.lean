/-
A written `.config` file is read back.

Every line of the file either sets the one symbol that it was written for, to the
value that it was written with, or is skipped.
-/

import BuildLinux.Concrete.KconfigFile
import BuildLinux.Concrete.KconfigSolution

namespace BuildLinux.Concrete.KconfigReread

open CStrings NumberText QuotedLines KconfigExpr KconfigCalculation KconfigValues KconfigEquations
  KconfigFile

variable {entry : Type}

/-! ### Lines -/

def setLine (config : Config entry) (index : entry) (value : CString) : CString :=
  configPrefix ++ (config.table.name index ++ '=' :: value)

def unsetLine (config : Config entry) (index : entry) : CString :=
  '#' :: ' ' :: (configPrefix ++ (config.table.name index ++ ' ' :: "is not set".toList))

/-- The text that stands for the value of a symbol. -/
def writtenValue (config : Config entry) (values : Values entry) (index : entry) : CString :=
  let str := symGetStringValue config.table values (.entry index)
  if config.table.type index = .string then quote str else str

/-- The line of a symbol that has a type. -/
def symbolLine (config : Config entry) (values : Values entry) (index : entry) : CString :=
  if IsSwitch config index ∧ (writtenValue config values index).head? = some 'n' then
    unsetLine config index
  else setLine config index (writtenValue config values index)

/-- A line that is skipped: an empty one, or a comment that names no symbol. -/
def IsIdle (line : CString) : Prop :=
  line = [] ∨ line = ['#'] ∨
    ∃ text, line = '#' :: ' ' :: text ∧ '\n' ∉ text ∧ ¬configPrefix <+: text

section Printing

variable {config : Config entry} {state : State entry} {index : entry}

theorem printSymbol_line (value : CString) :
    kconfigPrintSymbol config false index value =
      ended (if IsSwitch config index ∧ value.head? = some 'n' then unsetLine config index
        else setLine config index value) := by
  unfold kconfigPrintSymbol ended
  by_cases unset : IsSwitch config index ∧ value.head? = some 'n'
  · refine Eq.trans (if_pos unset) ?_
    rw [if_neg Bool.false_ne_true, if_pos unset]
    unfold unsetLine
    simp only [List.append_assoc, List.cons_append]
    rfl
  · refine Eq.trans (if_neg unset) ?_
    rw [if_neg unset]
    unfold setLine
    simp only [List.append_assoc, List.cons_append]
    rfl

theorem writeSymbol_line (hasVisibility : HasVisibility config index) :
    confWriteSymbol config false state index =
      ended (symbolLine config (state.values config) index) := by
  have printed : confWriteSymbol config false state index =
      kconfigPrintSymbol config false index (writtenValue config (state.values config) index) := by
    unfold confWriteSymbol writtenValue
    cases type : config.table.type index with
    | unknown => exact absurd type hasVisibility.1
    | other => exact absurd type hasVisibility.2
    | string => rfl
    | boolean => rfl
    | tristate => rfl
    | int => rfl
    | hex => rfl
  rw [printed, printSymbol_line]
  rfl

/-- A symbol without a type is not written. -/
theorem writeSymbol_nothing (rest : ¬HasVisibility config index) :
    confWriteSymbol config false state index = [] := by
  unfold confWriteSymbol
  unfold HasVisibility at rest
  cases type : config.table.type index with
  | unknown => rfl
  | other => rfl
  | boolean => simp [type] at rest
  | tristate => simp [type] at rest
  | int => simp [type] at rest
  | hex => simp [type] at rest
  | string => simp [type] at rest

end Printing

/-! ### Reading a line -/

section Reading

variable [DecidableEq entry] {config : Config entry} {names : Names config} {index : entry}
  {settings : Settings config}

omit [DecidableEq entry] in
theorem symFind_listed (listed : names.listed index = true) :
    symFind names (config.table.name index) = some (.entry index) := by
  obtain ⟨notYes, notMod, notNo⟩ := names.apart index listed
  unfold symFind
  rw [if_neg notYes, if_neg notMod, if_neg notNo, names.finds index listed]
  rfl

omit [DecidableEq entry] in
/-- The value behind the sign, without the end of the line. -/
theorem valueOfLine_ended {value : CString} (single : '\n' ∉ value)
    (plain : value.getLast? ≠ some '\r') : valueOfLine (ended value) = value := by
  have others : ∀ letter ∈ value, decide (letter ≠ '\n') = true :=
    fun letter inValue => decide_eq_true fun same => single (same ▸ inValue)
  have cut : (ended value).takeWhile (· ≠ '\n') = value := by
    unfold ended
    rw [List.takeWhile_append_of_pos others, List.takeWhile_cons_of_neg (by simp), List.append_nil]
  unfold valueOfLine
  dsimp only
  rw [cut, if_neg plain, if_pos]
  unfold ended
  exact List.mem_append_right value List.mem_cons_self

theorem readLine_set (listed : names.listed index = true) {value : CString}
    (single : '\n' ∉ value) (plain : value.getLast? ≠ some '\r') {read : Settings config}
    (accepted : confSetSymVal settings index value = some read) :
    readLine names settings (ended (setLine config index value)) = read.follow index := by
  have noMark : '=' ∉ config.table.name index :=
    fun inName => (names.plain index listed '=' inName).2.1 rfl
  have whole : ended (setLine config index value) =
      configPrefix ++ (config.table.name index ++ '=' :: ended value) := by
    unfold ended setLine
    simp only [List.append_assoc, List.cons_append]
  have noComment : readLine names settings (ended (setLine config index value)) =
      readSet names settings (ended (setLine config index value)) := rfl
  rw [noComment, whole]
  unfold readSet
  rw [if_pos (List.prefix_append _ _), List.drop_left, splitAtMark_append noMark]
  dsimp only
  rw [symFind_listed listed]
  simp only [valueOfLine_ended single plain, accepted]

theorem readLine_unset (listed : names.listed index = true) (isSwitch : IsSwitch config index) :
    readLine names settings (ended (unsetLine config index)) =
      (settings.setTri index .no).follow index := by
  have noMark : ' ' ∉ config.table.name index :=
    fun inName => (names.plain index listed ' ' inName).1 rfl
  have comment : ended (unsetLine config index) = '#' :: (' ' :: (configPrefix ++
      (config.table.name index ++ ' ' :: ended "is not set".toList))) := by
    unfold ended unsetLine
    simp only [List.append_assoc, List.cons_append]
  rw [comment]
  change readUnset names settings _ = _
  unfold readUnset
  rw [List.drop_one, List.tail_cons, if_pos (List.prefix_append _ _), Nat.add_comm,
    List.drop_succ_cons, List.drop_left, splitAtMark_append noMark]
  dsimp only
  have found : "is not set".toList <+: ended "is not set".toList := List.prefix_append _ _
  rw [symFind_listed listed]
  dsimp only
  rw [if_pos found]
  rcases isSwitch with type | type <;> rw [type]

theorem readLine_idle {line : CString} (idle : IsIdle line) :
    readLine names settings (ended line) = settings := by
  rcases idle with same | same | ⟨text, same, single, plain⟩
  · rw [same]
    rfl
  · rw [same]
    rfl
  · rw [same]
    change readUnset names settings (' ' :: (text ++ ['\n'])) = settings
    unfold readUnset
    rw [if_neg]
    rw [List.drop_one, List.tail_cons, List.prefix_concat_iff]
    rintro (whole | isPrefix)
    · have ends := congrArg List.getLast? whole
      rw [List.getLast?_concat] at ends
      exact absurd ends (by decide)
    · exact plain isPrefix

end Reading

/-! ### Reading a value -/

/-- A text fits into its line, and a number is one. -/
structure Readable (config : Config entry) (values : Values entry) (index : entry) : Prop where
  text : config.table.type index = .string → '\n' ∉ values.val index
  number : config.table.type index = .int ∨ config.table.type index = .hex →
    symStringValid (config.table.type index) (values.val index) = true

theorem letters_plain {str : CString}
    (apart : str.all (fun letter => letter != '\n' && letter != '\r') = true) :
    ∀ letter ∈ str, letter ≠ '\n' ∧ letter ≠ '\r' := by
  intro letter inStr
  have both := List.all_eq_true.mp apart letter inStr
  rw [Bool.and_eq_true] at both
  exact ⟨bne_iff_ne.mp both.1, bne_iff_ne.mp both.2⟩

theorem digit_plain {base : Nat} (small : base ≤ 16) {letter : Char}
    (digit : isDigitOf base letter = true) : letter ≠ '\n' ∧ letter ≠ '\r' := by
  have below : digitOf letter < base := of_decide_eq_true digit
  have noEnd : ¬digitOf '\n' < 16 := by decide
  have noReturn : ¬digitOf '\r' < 16 := by decide
  exact ⟨fun same => noEnd (same ▸ Nat.lt_of_lt_of_le below small),
    fun same => noReturn (same ▸ Nat.lt_of_lt_of_le below small)⟩

theorem decimal_plain {digits : CString} (valid : decimalValid digits = true) :
    ∀ letter ∈ digits, letter ≠ '\n' ∧ letter ≠ '\r' := by
  intro letter inDigits
  cases digits with
  | nil => exact absurd inDigits List.not_mem_nil
  | cons ch str =>
      unfold decimalValid at valid
      simp only [Bool.and_eq_true] at valid
      refine digit_plain (show 10 ≤ 16 by decide) ?_
      rcases List.mem_cons.mp inDigits with isFirst | inRest
      · rw [isFirst]
        exact valid.1.1
      · exact List.all_eq_true.mp valid.2 letter inRest

theorem number_plain {type : SymbolType} (isNumber : type = .int ∨ type = .hex) {str : CString}
    (valid : symStringValid type str = true) : ∀ letter ∈ str, letter ≠ '\n' ∧ letter ≠ '\r' := by
  intro letter inStr
  rcases isNumber with same | same
  · rw [same] at valid
    unfold symStringValid at valid
    dsimp only at valid
    split at valid
    next minus =>
      cases str with
      | nil => exact absurd inStr List.not_mem_nil
      | cons first rest =>
          rcases List.mem_cons.mp inStr with isFirst | inRest
          · rw [isFirst, Option.some.inj minus]
            decide
          · exact decimal_plain valid letter inRest
    next => exact decimal_plain valid letter inStr
  · rw [same] at valid
    unfold symStringValid at valid
    simp only [Bool.and_eq_true] at valid
    have digits := List.all_eq_true.mp valid.2
    split at digits
    next mark =>
      rw [← List.take_append_drop 2 str] at inStr
      rcases List.mem_append.mp inStr with inMark | inDigits
      · rcases mark with mark | mark
        · exact letters_plain (by rw [mark]; decide) letter inMark
        · exact letters_plain (by rw [mark]; decide) letter inMark
      · exact digit_plain (by decide) (digits letter inDigits)
    next => exact digit_plain (by decide) (digits letter inStr)

section Values

variable [DecidableEq entry] {config : Config entry} {names : Names config} {index : entry}
  {settings : Settings config} {values : Values entry}

/-- What a symbol that is read back is set to. -/
def assign (values : Values entry) (settings : Settings config) (index : entry) :
    Settings config :=
  (if IsSwitch config index then settings.setTri index (values.tri index)
    else settings.setVal index (values.val index)).follow index

omit [DecidableEq entry] in
theorem writtenValue_switch (coherent : Coherent config.table values)
    (isSwitch : IsSwitch config index) :
    (values.tri index = .mod → config.table.type index = .tristate) ∧
      writtenValue config values index = match values.tri index with
        | .no => "n".toList
        | .mod => "m".toList
        | .yes => "y".toList := by
  have tristate : values.tri index = .mod → config.table.type index = .tristate := fun isMod =>
    isSwitch.resolve_left fun type => coherent.boolean index type isMod
  have noString : config.table.type index ≠ .string := by
    rcases isSwitch with type | type <;> rw [type] <;> decide
  refine ⟨tristate, ?_⟩
  unfold writtenValue symGetStringValue
  dsimp only
  rw [if_neg noString]
  refine Eq.trans (if_pos isSwitch) ?_
  cases tri : values.tri index with
  | no => rfl
  | yes => rfl
  | mod =>
      dsimp only
      rw [if_neg fun modules => coherent.tristate index (tristate tri) modules tri]

omit [DecidableEq entry] in
theorem writtenValue_text (noString : config.table.type index ≠ .string)
    (noSwitch : ¬IsSwitch config index) : writtenValue config values index = values.val index := by
  unfold writtenValue symGetStringValue
  dsimp only
  rw [if_neg noString]
  exact if_neg noSwitch

omit [DecidableEq entry] in
theorem writtenValue_string (type : config.table.type index = .string) :
    writtenValue config values index = quote (values.val index) := by
  have noSwitch : ¬IsSwitch config index := by
    rintro (same | same) <;> rw [type] at same <;> cases same
  unfold writtenValue symGetStringValue
  dsimp only
  rw [if_pos type]
  exact congrArg quote (if_neg noSwitch)

omit [DecidableEq entry] in
theorem writtenValue_plain (coherent : Coherent config.table values)
    (readable : Readable config values index) (hasVisibility : HasVisibility config index) :
    '\n' ∉ writtenValue config values index ∧
      (writtenValue config values index).getLast? ≠ some '\r' := by
  have plain {str : CString} (letters : ∀ letter ∈ str, letter ≠ '\n' ∧ letter ≠ '\r') :
      '\n' ∉ str ∧ str.getLast? ≠ some '\r' :=
    ⟨fun inStr => (letters _ inStr).1 rfl,
      fun isLast => (letters _ (List.mem_of_getLast? isLast)).2 rfl⟩
  have switch (isSwitch : IsSwitch config index) : '\n' ∉ writtenValue config values index ∧
      (writtenValue config values index).getLast? ≠ some '\r' := by
    rw [(writtenValue_switch coherent isSwitch).2]
    refine plain (letters_plain ?_)
    cases values.tri index with
    | no => decide
    | mod => decide
    | yes => decide
  have number (isNumber : config.table.type index = .int ∨ config.table.type index = .hex) :
      '\n' ∉ writtenValue config values index ∧
        (writtenValue config values index).getLast? ≠ some '\r' := by
    rw [writtenValue_text (by rcases isNumber with type | type <;> rw [type] <;> decide)
      (by rintro (same | same) <;> rw [same] at isNumber <;> simp at isNumber)]
    exact plain (number_plain isNumber (readable.number isNumber))
  rcases hasVisibility.split with isSwitch | type | type | type
  · exact switch isSwitch
  · exact number (Or.inl type)
  · exact number (Or.inr type)
  · rw [writtenValue_string type]
    refine ⟨newline_not_mem_quote (readable.text type), ?_⟩
    change ('"' :: (escape (values.val index) ++ ['"'])).getLast? ≠ some '\r'
    rw [← List.cons_append, List.getLast?_concat]
    decide

omit [DecidableEq entry] in
/-- The line of a symbol is one line. -/
theorem symbolLine_single (coherent : Coherent config.table values)
    (listed : names.listed index = true) (readable : Readable config values index)
    (hasVisibility : HasVisibility config index) : '\n' ∉ symbolLine config values index := by
  have inName : '\n' ∉ config.table.name index :=
    fun inName => (names.plain index listed '\n' inName).2.2 rfl
  have inValue := (writtenValue_plain coherent readable hasVisibility).1
  have inPrefix : '\n' ∉ configPrefix := by decide
  have inUnset : '\n' ∉ "is not set".toList := by decide
  unfold symbolLine
  split
  · unfold unsetLine
    simp only [List.mem_cons, List.mem_append]
    rintro (same | same | inside | inside | same | inside)
    · exact absurd same (by decide)
    · exact absurd same (by decide)
    · exact inPrefix inside
    · exact inName inside
    · exact absurd same (by decide)
    · exact inUnset inside
  · unfold setLine
    simp only [List.mem_cons, List.mem_append]
    rintro (inside | inside | same | inside)
    · exact inPrefix inside
    · exact inName inside
    · exact absurd same (by decide)
    · exact inValue inside

/-- What is written is accepted. -/
theorem setSymVal_switch (coherent : Coherent config.table values)
    (isSwitch : IsSwitch config index)
    (isSet : (writtenValue config values index).head? ≠ some 'n') :
    confSetSymVal settings index (writtenValue config values index) =
      some (settings.setTri index (values.tri index)) := by
  obtain ⟨tristate, value⟩ := writtenValue_switch coherent isSwitch
  rw [value] at isSet ⊢
  unfold confSetSymVal
  cases tri : values.tri index with
  | no =>
      rw [tri] at isSet
      exact absurd rfl isSet
  | mod =>
      rw [tristate tri]
      rfl
  | yes => rcases isSwitch with type | type <;> rw [type] <;> rfl

theorem setSymVal_text (readable : Readable config values index) (isText : IsText config index) :
    confSetSymVal settings index (writtenValue config values index) =
      some (settings.setVal index (values.val index)) := by
  have noSwitch : ¬IsSwitch config index := fun isSwitch => isSwitch.not_text isText
  rcases isText with type | type | type
  · rw [writtenValue_text (by rw [type]; decide) noSwitch]
    unfold confSetSymVal
    rw [type]
    dsimp only
    rw [if_pos (type ▸ readable.number (Or.inl type))]
  · rw [writtenValue_text (by rw [type]; decide) noSwitch]
    unfold confSetSymVal
    rw [type]
    dsimp only
    rw [if_pos (type ▸ readable.number (Or.inr type))]
  · rw [writtenValue_string type]
    unfold confSetSymVal
    rw [type]
    change (unquote (escape (values.val index) ++ ['"'])).map (settings.setVal index) = _
    rw [unquote_escape]
    rfl

/-- The line of a symbol sets the symbol to its value. -/
theorem readLine_symbol (coherent : Coherent config.table values)
    (listed : names.listed index = true) (readable : Readable config values index)
    (hasVisibility : HasVisibility config index) :
    readLine names settings (ended (symbolLine config values index)) =
      assign values settings index := by
  obtain ⟨single, plain⟩ := writtenValue_plain coherent readable hasVisibility
  unfold symbolLine assign
  by_cases isSwitch : IsSwitch config index
  · rw [if_pos isSwitch]
    by_cases unset : (writtenValue config values index).head? = some 'n'
    · rw [if_pos ⟨isSwitch, unset⟩, readLine_unset listed isSwitch]
      rw [(writtenValue_switch coherent isSwitch).2] at unset
      cases tri : values.tri index with
      | no => rfl
      | mod =>
          rw [tri] at unset
          exact absurd unset (by decide)
      | yes =>
          rw [tri] at unset
          exact absurd unset (by decide)
    · rw [if_neg fun both => unset both.2]
      exact readLine_set listed single plain (setSymVal_switch coherent isSwitch unset)
  · have isText := hasVisibility.split.resolve_left isSwitch
    rw [if_neg isSwitch, if_neg fun both => isSwitch both.1]
    exact readLine_set listed single plain (setSymVal_text readable isText)

end Values

/-! ### The lines of a file -/

/-- The lines of a file, and the symbols that they are written for. -/
inductive Written (config : Config entry) (values : Values entry) :
    List CString → List entry → Prop where
  | nil : Written config values [] []
  | idle {line : CString} {listing : List CString} {symbols : List entry} (skipped : IsIdle line)
      (rest : Written config values listing symbols) :
      Written config values (line :: listing) symbols
  | symbol {index : entry} {listing : List CString} {symbols : List entry}
      (hasVisibility : HasVisibility config index) (rest : Written config values listing symbols) :
      Written config values (symbolLine config values index :: listing) (index :: symbols)

section Files

variable {config : Config entry} {names : Names config} {values : Values entry}
  {listing : List CString} {symbols : List entry}

theorem Written.append {others : List CString} {more : List entry}
    (written : Written config values listing symbols) (later : Written config values others more) :
    Written config values (listing ++ others) (symbols ++ more) := by
  induction written with
  | nil => exact later
  | idle skipped _ ih => exact .idle skipped ih
  | symbol hasVisibility _ ih => exact .symbol hasVisibility ih

theorem written_idle (idle : ∀ line ∈ listing, IsIdle line) : Written config values listing [] := by
  induction listing with
  | nil => exact .nil
  | cons line rest ih =>
      exact .idle (idle line List.mem_cons_self)
        (ih fun other listed => idle other (List.mem_cons_of_mem line listed))

theorem idle_single {line : CString} (idle : IsIdle line) : '\n' ∉ line := by
  rcases idle with same | same | ⟨text, same, single, _⟩
  · rw [same]
    exact List.not_mem_nil
  · rw [same]
    decide
  · rw [same]
    simp only [List.mem_cons]
    rintro (isMark | isSpace | inText)
    · exact absurd isMark (by decide)
    · exact absurd isSpace (by decide)
    · exact single inText

variable (coherent : Coherent config.table values)
  (listed : ∀ index ∈ symbols, names.listed index = true)
  (readable : ∀ index ∈ symbols, Readable config values index)

include coherent listed readable

theorem Written.single (written : Written config values listing symbols) :
    ∀ line ∈ listing, '\n' ∉ line := by
  induction written with
  | nil => exact fun line inNone => absurd inNone List.not_mem_nil
  | idle skipped _ ih =>
      intro line inLines
      rcases List.mem_cons.mp inLines with same | inRest
      · exact same ▸ idle_single skipped
      · exact ih listed readable line inRest
  | symbol hasVisibility _ ih =>
      intro line inLines
      rcases List.mem_cons.mp inLines with same | inRest
      · rw [same]
        exact symbolLine_single coherent (listed _ List.mem_cons_self)
          (readable _ List.mem_cons_self) hasVisibility
      · exact ih (fun other inSymbols => listed other (List.mem_cons_of_mem _ inSymbols))
          (fun other inSymbols => readable other (List.mem_cons_of_mem _ inSymbols)) line inRest

variable [DecidableEq entry]

/-- The symbols of a file are set one after the other. -/
theorem Written.read (written : Written config values listing symbols)
    (settings : Settings config) :
    (lines (listing.flatMap ended)).foldl (readLine names) settings =
      symbols.foldl (assign values) settings := by
  rw [lines_flatMap (Written.single coherent listed readable written)]
  induction written generalizing settings with
  | nil => rfl
  | idle skipped _ ih =>
      rw [List.map_cons, List.foldl_cons, readLine_idle skipped]
      exact ih listed readable settings
  | symbol hasVisibility _ ih =>
      rw [List.map_cons, List.foldl_cons, List.foldl_cons,
        readLine_symbol coherent (listed _ List.mem_cons_self) (readable _ List.mem_cons_self)
          hasVisibility]
      exact ih (fun other inSymbols => listed other (List.mem_cons_of_mem _ inSymbols))
        (fun other inSymbols => readable other (List.mem_cons_of_mem _ inSymbols)) _

end Files

/-! ### The heading -/

theorem comment_idle {text : CString} (single : '\n' ∉ text) (plain : ¬configPrefix <+: text) :
    IsIdle (commentLine text) := by
  unfold commentLine
  split
  · exact Or.inr (Or.inl rfl)
  · exact Or.inr (Or.inr ⟨text, rfl, single, plain⟩)

theorem printComment_lines (text : CString) :
    kconfigPrintComment text = ((text.splitOn '\n').map commentLine).flatMap ended := by
  unfold kconfigPrintComment
  rw [List.flatMap_map]

/-- The heading names no symbol, unless the title of all menus looks like one. -/
theorem heading_idle {rootPrompt : CString} (single : '\n' ∉ rootPrompt)
    (plain : ¬configPrefix <+: rootPrompt) :
    ∃ listing : List CString, confWriteHeading rootPrompt = listing.flatMap ended ∧
      ∀ line ∈ listing, IsIdle line := by
  have comments {texts : List CString}
      (idle : ∀ text ∈ texts, '\n' ∉ text ∧ ¬configPrefix <+: text) :
      ∀ line ∈ texts.map commentLine, IsIdle line := by
    intro line inLines
    obtain ⟨text, inTexts, rfl⟩ := List.mem_map.mp inLines
    exact comment_idle (idle text inTexts).1 (idle text inTexts).2
  have title {count : Nat} : ∀ text ∈ ((rootPrompt ++ ['\n']).take count).splitOn '\n',
      '\n' ∉ text ∧ ¬configPrefix <+: text := by
    intro text inTexts
    rw [List.take_append] at inTexts
    cases more : count - rootPrompt.length with
    | zero =>
        have cut : '\n' ∉ rootPrompt.take count := fun inCut => single (List.mem_of_mem_take inCut)
        rw [more, List.take_zero, List.append_nil, List.splitOn_eq_singleton cut,
          List.mem_singleton] at inTexts
        rw [inTexts]
        exact ⟨cut, fun isPrefix => plain (isPrefix.trans (List.take_prefix _ _))⟩
    | succ rest =>
        rw [more, List.take_of_length_le (by omega), List.take_succ_cons, List.take_nil,
          List.splitOn_append_cons_self_of_not_mem single] at inTexts
        rcases List.mem_cons.mp inTexts with same | isEnd
        · exact same ▸ ⟨single, plain⟩
        · rw [List.splitOn_nil, List.mem_singleton] at isEnd
          rw [isEnd]
          exact ⟨List.not_mem_nil, by decide⟩
  have front : ("\nAutomatically generated file; DO NOT EDIT.\n".toList ++ rootPrompt ++
      "\n".toList).take 255 = [] ++ '\n' :: ("Automatically generated file; DO NOT EDIT.".toList ++
        '\n' :: (rootPrompt ++ ['\n']).take 211) := by
    rw [List.append_assoc]
    rfl
  refine ⟨_, printComment_lines _, comments ?_⟩
  rw [front, List.splitOn_append_cons_self_of_not_mem List.not_mem_nil,
    List.splitOn_append_cons_self_of_not_mem (by decide)]
  intro text inTexts
  rcases List.mem_cons.mp inTexts with same | inTexts
  · rw [same]
    exact ⟨List.not_mem_nil, by decide⟩
  · rcases List.mem_cons.mp inTexts with same | inTitle
    · rw [same]
      exact ⟨by decide, by decide⟩
    · exact title text inTitle

end BuildLinux.Concrete.KconfigReread
