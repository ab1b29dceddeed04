/-
A configuration survives in its `.config` file.

What the user sees is read back from the file as it was written, and what is then
calculated are the values from before.
-/

import BuildLinux.Concrete.KconfigSaved

namespace BuildLinux.Concrete.KconfigRestored

open CStrings KconfigExpr KconfigCalculation KconfigValues KconfigEquations KconfigMemo
  KconfigSolution KconfigFile KconfigReread KconfigWriting KconfigSettings KconfigSaved

variable {entry : Type}

/-! ### A board with its menus -/

def boardNames : Names boardConfig where
  listed index := decide (index ∈ [Board.modules, .bus, .fast, .slow, .clock, .spare])
  find name := [Board.modules, .bus, .fast, .slow, .clock, .spare].find? fun index =>
    decide (boardTable.name index = name)
  finds index listed := by
    cases index with
    | modules => decide
    | bus => decide
    | fast => decide
    | slow => decide
    | clock => decide
    | spare => decide
    | speed => exact absurd listed (by decide)
    | least => exact absurd listed (by decide)
    | most => exact absurd listed (by decide)
  plain index _ letter inName := by
    have apart : (boardTable.name index).all
        (fun letter => letter != ' ' && letter != '=' && letter != '\n') = true := by
      cases index <;> decide
    have each := List.all_eq_true.mp apart letter inName
    simp only [Bool.and_eq_true, bne_iff_ne] at each
    exact ⟨each.1.1, each.1.2, each.2⟩
  apart index _ := by
    cases index <;> decide

def boardMenu : Menu Board :=
  .title (some ("Board".toList, none)) none
    (.symbol .modules .none
      (.symbol .bus .none
        (.symbol .speed (.symbol .fast .none (.symbol .slow .none .none))
          (.symbol .clock .none (.symbol .spare .none .none))))) .none

/-- The board with its fast value, and a clock at its lower limit. -/
def boardOutcomes : Outcomes Board
  | .modules => ⟨.no, "n".toList, none, .yes, .yes, .no, .no⟩
  | .bus => ⟨.yes, "n".toList, none, .yes, .yes, .no, .no⟩
  | .speed => ⟨.yes, "n".toList, some .fast, .yes, .yes, .yes, .no⟩
  | .fast => ⟨.yes, "n".toList, none, .yes, .no, .no, .no⟩
  | .slow => ⟨.no, "n".toList, none, .yes, .no, .no, .no⟩
  | .clock => ⟨.no, "10".toList, none, .yes, .yes, .no, .no⟩
  | .spare => ⟨.no, [], none, .no, .yes, .no, .no⟩
  | .least => ⟨.no, "10".toList, none, .no, .no, .no, .no⟩
  | .most => ⟨.no, "200".toList, none, .no, .no, .no, .no⟩

theorem boardSolves : Solves boardConfig boardUser boardSet boardOutcomes := by
  intro index
  cases index with
  | modules => rfl
  | bus => rfl
  | speed => rfl
  | fast => rfl
  | slow => rfl
  | clock => rfl
  | spare => rfl
  | least => rfl
  | most => rfl

theorem boardFinalized : Finalized boardConfig boardNames boardMenu where
  listed index inMenus single := by
    cases index with
    | modules => rfl
    | bus => rfl
    | fast => rfl
    | slow => rfl
    | clock => rfl
    | spare => rfl
    | speed => exact absurd (by decide) single
    | least => exact absurd inMenus (by decide)
    | most => exact absurd inMenus (by decide)
  prompted index single prompts := by
    cases index with
    | modules => exact ⟨by decide, rfl⟩
    | bus => exact ⟨by decide, rfl⟩
    | fast => exact ⟨by decide, rfl⟩
    | slow => exact ⟨by decide, rfl⟩
    | clock => exact ⟨by decide, rfl⟩
    | spare => exact ⟨by decide, rfl⟩
    | speed => exact ⟨by decide, rfl⟩
    | least => exact absurd rfl prompts
    | most => exact absurd rfl prompts
  titles text listed := by
    cases List.mem_singleton.mp listed
    decide
  switches value isValue := by
    cases value with
    | fast => exact Or.inl rfl
    | slow => exact Or.inl rfl
    | _ => exact absurd rfl isValue
  noDefaults _ _ := rfl
  bounded value choice belongs prompt listed values := by
    cases value <;> cases belongs <;> cases List.mem_singleton.mp listed
    · exact and_le_left _ _
    · exact le_refl _
  whole value choice belongs type := by
    cases value <;> cases belongs <;> cases type

/-- The spare clock is not seen and has no value, so that it is not written. -/
theorem boardWritten :
    confWriteSymbols boardConfig boardUser 4 true boardState boardMenu =
      [.modules, .bus, .fast, .slow, .clock] := by decide

theorem boardReadable (index : Board)
    (inFile : index ∈ confWriteSymbols boardConfig boardUser 4 true boardState boardMenu) :
    Readable boardConfig (boardOutcomes.values boardConfig) index where
  text type := by cases index <;> cases type
  number isNumber := by
    rw [boardWritten] at inFile
    cases index with
    | clock => decide
    | spare => exact absurd inFile (by decide)
    | _ => rcases isNumber with type | type <;> cases type

theorem boardStorable :
    Storable boardConfig (confWriteSymbols boardConfig boardUser 4 true boardState boardMenu)
      boardSet boardOutcomes where
  readable := boardReadable
  ordered index _ base left right visible based met := by
    cases index with
    | clock =>
        cases based
        cases met
        exact ⟨by decide, fun type => by cases type⟩
    | spare => cases met
    | _ => cases based
  within index isSwitch single noValue unset visible := by
    cases index with
    | modules => exact Or.inl (by decide)
    | bus => cases unset
    | speed => exact absurd (by decide) single
    | fast => exact absurd (by decide) noValue
    | slow => exact absurd (by decide) noValue
    | clock => cases unset
    | spare => exact absurd rfl visible
    | least => rcases isSwitch with type | type <;> cases type
    | most => rcases isSwitch with type | type <;> cases type
  mode choice isChoice isMod := by
    cases choice <;> cases isMod
  unset choice isChoice _ := by
    cases choice with
    | speed => decide
    | _ => exact absurd rfl isChoice

theorem boardTitled : '\n' ∉ "Board".toList ∧ ¬configPrefix <+: "Board".toList := by decide

/-- Nothing has been calculated when the board is saved. -/
theorem boardReached :
    (if true = true then boardState
      else symClearAllValid boardConfig boardUser 4 boardState) =
    [].foldl (symCalcValue boardConfig boardUser 4) boardState := if_pos rfl

/-! ### A configuration that is saved -/

/-- The symbols that are written are read back with their values, and every choice with the value
that is `y`; the symbols that the user sees are among them. -/
theorem configuration_reread [DecidableEq entry] {config : Config entry} {rank : entry → Nat}
    (ranked : Ranked config rank) {fuel : Nat} (within : ∀ index, rank index < fuel)
    {user : User config} {defUser : entry → Bool} {outcomes : Outcomes entry}
    (solves : Solves config user defUser outcomes) {names : Names config} {menu : Menu entry}
    (finalized : Finalized config names menu) {rootPrompt : CString}
    (titled : '\n' ∉ rootPrompt ∧ ¬configPrefix <+: rootPrompt) {changed : Bool}
    {state start : State entry} (cleared : Cleared config defUser start) {order : List entry}
    (reached : (if changed = true then state else symClearAllValid config user fuel state) =
      order.foldl (symCalcValue config user fuel) start)
    (readable : ∀ index ∈ confWriteSymbols config user fuel changed state menu,
      Readable config (outcomes.values config) index) :
    let symbols := confWriteSymbols config user fuel changed state menu
    let read := confReadSimple names (confWrite config user fuel changed rootPrompt state menu).2
    (∀ index ∈ symbols, index ∈ menu.symbols ∧ ¬IsChoice config index) ∧
      (∀ index, ¬IsChoice config index → HasVisibility config index →
        (outcomes index).visible ≠ .no → index ∈ symbols) ∧
      (∀ index, read.set index = true ↔ IsChoice config index ∨ index ∈ symbols) ∧
      (∀ index ∈ symbols, if KconfigEquations.IsSwitch config index
        then read.user.tri index = (outcomes index).tri
        else read.user.val index = (outcomes index).val) ∧
      ∀ choice value, read.user.chosen choice = some value ↔
        config.choiceOf value = some choice ∧ value ∈ symbols ∧ (outcomes value).tri = .yes := by
  intro symbols read
  obtain ⟨inMenus, restored⟩ :=
    confWrite_restores solves finalized ranked within titled cleared reached readable
  refine ⟨fun index inSymbols => ⟨inMenus index inSymbols,
    restored.single index inSymbols⟩, restored.shown, restored.follows.set,
    fun index inSymbols => ?_, restored.follows.chosen⟩
  split
  next =>
    have tri := restored.follows.tri index (restored.single index inSymbols)
    rw [if_pos inSymbols] at tri
    exact tri
  next noSwitch =>
    have val := restored.follows.val index
    rw [if_pos ⟨inSymbols, noSwitch⟩] at val
    exact val

theorem configuration_reread_board :
    let read := confReadSimple boardNames
      (confWrite boardConfig boardUser 4 true "Board".toList boardState boardMenu).2
    read.set .clock = true ∧ read.user.val .clock = "10".toList ∧ read.user.tri .bus = .yes ∧
      read.user.chosen .speed = some .fast ∧ read.set .spare = false := by
  obtain ⟨_, _, set, values, chosen⟩ := configuration_reread boardRanked boardRank_lt
    boardSolves boardFinalized boardTitled boardCleared boardReached boardReadable
  rw [boardWritten] at set values chosen
  have clock := values .clock (by decide)
  have bus := values .bus (by decide)
  have isText : ¬KconfigEquations.IsSwitch boardConfig .clock := by
    rintro (type | type) <;> cases type
  have isSwitch : KconfigEquations.IsSwitch boardConfig .bus := Or.inl rfl
  rw [if_neg isText] at clock
  rw [if_pos isSwitch] at bus
  have unread : ¬(IsChoice boardConfig .spare ∨
      Board.spare ∈ [Board.modules, .bus, .fast, .slow, .clock]) := by decide
  exact ⟨(set .clock).mpr (Or.inr (by decide)), clock, bus,
    (chosen .speed .fast).mpr ⟨rfl, by decide, rfl⟩,
    Bool.eq_false_iff.mpr fun isSet => unread ((set .spare).mp isSet)⟩

/-- All symbols have their values again when they are calculated from the file. -/
theorem configuration_restored [DecidableEq entry] {config : Config entry} {rank : entry → Nat}
    (ranked : Ranked config rank) {fuel : Nat} (within : ∀ index, rank index < fuel)
    {user : User config} {defUser : entry → Bool} {outcomes : Outcomes entry}
    (solves : Solves config user defUser outcomes) {names : Names config} {menu : Menu entry}
    (finalized : Finalized config names menu) {rootPrompt : CString}
    (titled : '\n' ∉ rootPrompt ∧ ¬configPrefix <+: rootPrompt) {changed : Bool}
    {state start : State entry} (cleared : Cleared config defUser start) {order : List entry}
    (reached : (if changed = true then state else symClearAllValid config user fuel state) =
      order.foldl (symCalcValue config user fuel) start)
    (storable : Storable config (confWriteSymbols config user fuel changed state menu) defUser
      outcomes) :
    let read := confReadSimple names (confWrite config user fuel changed rootPrompt state menu).2
    ∀ again : State entry, Cleared config read.set again →
      ∀ (earlier later : List entry) (index : entry), index ∈ earlier → index ∈ later →
        let before := earlier.foldl (symCalcValue config user fuel) start index
        let after := later.foldl (symCalcValue config read.user fuel) again index
        before.tri = (outcomes index).tri ∧ before.val = (outcomes index).val ∧
          after.tri = before.tri ∧ after.val = before.val ∧ after.chosen = before.chosen := by
  intro read again clearedAgain earlier later index inEarlier inLater
  obtain ⟨_, restored⟩ :=
    confWrite_restores solves finalized ranked within titled cleared reached storable.readable
  have solvesAgain : Solves config read.user read.set outcomes :=
    saved_solves restored finalized solves storable
  have before := (solution_settles ranked within solves cleared inEarlier).2
  have after := (solution_settles ranked within solvesAgain clearedAgain inLater).2
  exact ⟨before.tri, before.val, after.tri.trans before.tri.symm, after.val.trans before.val.symm,
    after.chosen.trans before.chosen.symm⟩

theorem configuration_restored_board :
    let read := confReadSimple boardNames
      (confWrite boardConfig boardUser 4 true "Board".toList boardState boardMenu).2
    let again : State Board := fun index => boardCell (read.set index)
    let after := [Board.slow, .clock].foldl (symCalcValue boardConfig read.user 4) again
    (after .clock).val = "10".toList ∧ (after .slow).tri = .no := by
  have restored := configuration_restored boardRanked boardRank_lt boardSolves boardFinalized
    boardTitled boardCleared boardReached boardStorable
  dsimp only at restored ⊢
  generalize confReadSimple boardNames
    (confWrite boardConfig boardUser 4 true "Board".toList boardState boardMenu).2 = read at *
  have clearedAgain : Cleared boardConfig read.set fun index => boardCell (read.set index) :=
    ⟨fun _ => rfl, fun _ => rfl, fun _ _ => ⟨rfl, rfl, rfl⟩⟩
  have kept := restored _ clearedAgain [.slow, .clock] [.slow, .clock]
  have clock := kept .clock (by decide) (by decide)
  have slow := kept .slow (by decide) (by decide)
  exact ⟨clock.2.2.2.1.trans clock.2.1, slow.2.2.1.trans slow.1⟩

end BuildLinux.Concrete.KconfigRestored
