/-
The `.config` file.

The symbols that are to be written stand in it line by line, in the order of the
menus; a symbol that is `n` stands in a comment.  What is read are the user's
values: first all of them are cleared, then every line sets one symbol, and a
choice follows its values.

The prefix of the names is `CONFIG_`.  Warnings and change counts are left out.
-/

import BuildLinux.QuotedLines
import BuildLinux.Concrete.KconfigCalculation

namespace BuildLinux.Concrete.KconfigFile

open CStrings NumberText QuotedLines KconfigExpr KconfigCalculation

variable {entry : Type}

/-! ### Names and menus -/

/-- The symbols that Kconfig files define by name, and how `sym_find` finds them. -/
structure Names (config : Config entry) where
  listed : entry → Bool
  find : CString → Option entry
  finds : ∀ index, listed index = true → find (config.table.name index) = some index
  plain : ∀ index, listed index = true → ∀ letter ∈ config.table.name index,
    letter ≠ ' ' ∧ letter ≠ '=' ∧ letter ≠ '\n'
  apart : ∀ index, listed index = true → config.table.name index ≠ "y".toList ∧
    config.table.name index ≠ "m".toList ∧ config.table.name index ≠ "n".toList

def symFind {config : Config entry} (names : Names config) (name : CString) :
    Option (Symbol entry) :=
  if name = "y".toList then some .yes
  else if name = "m".toList then some .mod
  else if name = "n".toList then some .no
  else (names.find name).map .entry

/-- A menu with its list and the next menu.  A menu without a symbol may have a prompt, with its
text and condition, and has its own `visibility`. -/
inductive Menu (entry : Type) where
  | none
  | title (prompt : Option (CString × Option (Expr entry))) (visibility : Option (Expr entry))
      (list next : Menu entry)
  | symbol (index : entry) (list next : Menu entry)

def Menu.symbols : Menu entry → List entry
  | .none => []
  | .title _ _ list next => list.symbols ++ next.symbols
  | .symbol index list next => index :: (list.symbols ++ next.symbols)

def Menu.titles : Menu entry → List CString
  | .none => []
  | .title prompt _ list next => (prompt.map Prod.fst).toList ++ (list.titles ++ next.titles)
  | .symbol _ list next => list.titles ++ next.titles

/-! ### Writing -/

def configPrefix : CString := "CONFIG_".toList

def kconfigPrintSymbol (config : Config entry) (skipUnset : Bool) (index : entry)
    (value : CString) : CString :=
  if (config.table.type index = .boolean ∨ config.table.type index = .tristate) ∧
      value.head? = some 'n' then
    if skipUnset then []
    else "# ".toList ++ configPrefix ++ config.table.name index ++ " is not set\n".toList
  else configPrefix ++ config.table.name index ++ "=".toList ++ value ++ "\n".toList

def commentLine (text : CString) : CString :=
  '#' :: (if text = [] then [] else ' ' :: text)

def kconfigPrintComment (text : CString) : CString :=
  (text.splitOn '\n').flatMap fun line => ended (commentLine line)

/-- `conf_write_symbol` with the printer for `.config`. -/
def confWriteSymbol (config : Config entry) (skipUnset : Bool) (state : State entry)
    (index : entry) : CString :=
  let str := symGetStringValue config.table (state.values config) (.entry index)
  match config.table.type index with
  | .other | .unknown => []
  | .string => kconfigPrintSymbol config skipUnset index (quote str)
  | .boolean | .tristate | .int | .hex => kconfigPrintSymbol config skipUnset index str

/-- `conf_write_heading`, whose buffer has 256 bytes. -/
def confWriteHeading (rootPrompt : CString) : CString :=
  kconfigPrintComment (("\nAutomatically generated file; DO NOT EDIT.\n".toList ++ rootPrompt ++
    "\n".toList).take 255)

section Write

variable [DecidableEq entry]

/-- `menu_is_visible` for a menu without a symbol. -/
def titleIsVisible (config : Config entry) (calculate : State entry → entry → State entry)
    (state : State entry) (visibility visible : Option (Expr entry)) : State entry × Bool :=
  let shown := calcCondition config calculate state visibility
  if shown.2 = .no then (shown.1, false)
  else
    let prompt := calcCondition config calculate shown.1 visible
    (prompt.1, decide (prompt.2 ≠ .no))

def writeTitle (config : Config entry) (calculate : State entry → entry → State entry)
    (state : State entry) (visibility : Option (Expr entry)) :
    Option (CString × Option (Expr entry)) → State entry × CString
  | none => (state, [])
  | some (text, visible) =>
      let shown := titleIsVisible config calculate state visibility visible
      (shown.1, if shown.2 = true then "\n#\n# ".toList ++ text ++ "\n#\n".toList else [])

def writeSymbol (config : Config entry) (calculate : State entry → entry → State entry)
    (state : State entry) (index : entry) : State entry × CString :=
  if IsChoice config index then (state, [])
  else
    let after := calculate state index
    if (after index).write = true then
      let unmarked := after.change index fun cell => { cell with write := false }
      (unmarked, confWriteSymbol config false unmarked index)
    else (after, [])

/-- The loop of `conf_write` over the menus. -/
def writeMenus (config : Config entry) (calculate : State entry → entry → State entry) :
    State entry → Menu entry → State entry × CString
  | state, .none => (state, [])
  | state, .title prompt visibility list next =>
      let title := writeTitle config calculate state visibility prompt
      let inside := writeMenus config calculate title.1 list
      let behind := writeMenus config calculate inside.1 next
      (behind.1, title.2 ++ inside.2 ++ behind.2)
  | state, .symbol index list next =>
      let line := writeSymbol config calculate state index
      let inside := writeMenus config calculate line.1 list
      let behind := writeMenus config calculate inside.1 next
      (behind.1, line.2 ++ inside.2 ++ behind.2)

def invalidated (state : State entry) : State entry :=
  fun index => { (state index) with valid := false }

/-- `sym_clear_all_valid`, which calculates `modules_sym` at once. -/
def symClearAllValid (config : Config entry) (user : User config) (fuel : Nat)
    (state : State entry) : State entry :=
  config.modulesSym.toList.foldl (symCalcValue config user fuel) (invalidated state)

/-- `modules_val`, when `modules_sym` has been calculated. -/
def modulesVal (config : Config entry) (state : State entry) : Tristate :=
  match config.modulesSym with
  | none => config.modules
  | some index => (state index).tri

/-- `conf_write`, which calculates all values again unless something has changed. -/
def confWrite (config : Config entry) (user : User config) (fuel : Nat) (changed : Bool)
    (rootPrompt : CString) (state : State entry) (menu : Menu entry) : State entry × CString :=
  let begun := if changed = true then state else symClearAllValid config user fuel state
  let written := writeMenus config (symCalcValue config user fuel) begun menu
  (written.1, confWriteHeading rootPrompt ++ written.2)

/-! ### Reading -/

/-- What the user has set, and which symbols: `def[S_DEF_USER]` and `SYMBOL_DEF_USER`. -/
structure Settings (config : Config entry) where
  user : User config
  set : entry → Bool

def Settings.setTri {config : Config entry} (settings : Settings config) (index : entry)
    (tri : Tristate) : Settings config where
  user := { settings.user with tri := Function.update settings.user.tri index tri }
  set := Function.update settings.set index true

def Settings.setVal {config : Config entry} (settings : Settings config) (index : entry)
    (val : CString) : Settings config where
  user := { settings.user with val := Function.update settings.user.val index val }
  set := Function.update settings.set index true

def Settings.choose {config : Config entry} (settings : Settings config) (choice value : entry)
    (belongs : config.choiceOf value = some choice) : Settings config where
  user := { settings.user with
    chosen := Function.update settings.user.chosen choice (some value)
    chosenListed := by
      intro other picked remembered
      by_cases same : other = choice
      · cases same
        rw [Function.update_self] at remembered
        cases remembered
        exact belongs
      · rw [Function.update_of_ne same] at remembered
        exact settings.user.chosenListed other picked remembered }
  set := settings.set

def Settings.drop {config : Config entry} (settings : Settings config) (choice : entry) :
    Settings config :=
  { settings with set := Function.update settings.set choice false }

def Settings.raise {config : Config entry} (settings : Settings config) (choice : entry)
    (tri : Tristate) : Settings config :=
  { settings with
    user := { settings.user with
      tri := Function.update settings.user.tri choice ((settings.user.tri choice).or tri) } }

def Settings.follow {config : Config entry} (settings : Settings config) (value : entry) :
    Settings config :=
  match belongs : config.choiceOf value with
  | none => settings
  | some choice =>
      let tri : Tristate := settings.user.tri value
      let noted : Settings config :=
        match tri with
        | .no => settings
        | .mod =>
            if settings.user.tri choice = Tristate.yes then settings.drop choice else settings
        | .yes => settings.choose choice value belongs
      noted.raise choice tri

def cleared (config : Config entry) : Settings config where
  user := ⟨fun _ => .no, fun _ => [], fun _ => none, fun _ _ none => absurd none (by simp)⟩
  set index := decide (IsChoice config index)

end Write

def decimalValid : CString → Bool
  | [] => false
  | ch :: str => isDigitOf 10 ch && !decide (ch = '0' ∧ str ≠ []) && str.all (isDigitOf 10)

def symStringValid (type : SymbolType) (str : CString) : Bool :=
  match type with
  | .string => true
  | .int => decimalValid (if str.head? = some '-' then str.drop 1 else str)
  | .hex =>
      let digits := if str.take 2 = "0x".toList ∨ str.take 2 = "0X".toList then str.drop 2 else str
      decide (digits ≠ []) && digits.all (isDigitOf 16)
  | .boolean | .tristate => str.head?.any fun ch => "yYmMnN".toList.contains ch
  | .unknown | .other => false

section Read

variable [DecidableEq entry] {config : Config entry}

/-- `conf_set_sym_val` for the user's values; no symbol has the type `S_OTHER` then. -/
def confSetSymVal (settings : Settings config) (index : entry) (p : CString) :
    Option (Settings config) :=
  match config.table.type index with
  | .boolean | .tristate =>
      if config.table.type index = .tristate ∧ p.head? = some 'm' then
        some (settings.setTri index .mod)
      else if p.head? = some 'y' then some (settings.setTri index .yes)
      else if p.head? = some 'n' then some (settings.setTri index .no)
      else none
  | .string =>
      match p with
      | '"' :: rest => (unquote rest).map (settings.setVal index)
      | _ => some settings
  | .int | .hex =>
      if symStringValid (config.table.type index) p = true then some (settings.setVal index p)
      else none
  | .unknown | .other => some settings

def valueOfLine (p : CString) : CString :=
  if '\n' ∈ p then
    let cut := p.takeWhile (· ≠ '\n')
    if cut.getLast? = some '\r' then cut.dropLast else cut
  else p

def readUnset (names : Names config) (settings : Settings config) (comment : CString) :
    Settings config :=
  if configPrefix <+: comment.drop 1 then
    match splitAtMark ' ' (comment.drop (1 + configPrefix.length)) with
    | none => settings
    | some (name, p) =>
        match symFind names name with
        | some (.entry index) =>
            if "is not set".toList <+: p then
              (match config.table.type index with
                | .boolean | .tristate => settings.setTri index .no
                | _ => settings).follow index
            else settings
        | _ => settings
  else settings

def readSet (names : Names config) (settings : Settings config) (line : CString) :
    Settings config :=
  if configPrefix <+: line then
    match splitAtMark '=' (line.drop configPrefix.length) with
    | none => settings
    | some (name, p) =>
        match symFind names name with
        | some (.entry index) =>
            match confSetSymVal settings index (valueOfLine p) with
            | none => settings
            | some read => read.follow index
        | _ => settings
  else settings

def readLine (names : Names config) (settings : Settings config) : CString → Settings config
  | '#' :: comment => readUnset names settings comment
  | line => readSet names settings line

def confReadSimple (names : Names config) (file : CString) : Settings config :=
  (lines file).foldl (readLine names) (cleared config)

end Read

end BuildLinux.Concrete.KconfigFile
