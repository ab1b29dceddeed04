/-
What is written into a `.config` file.

The menus are walked through while the values are still calculated.  Every symbol
that is written has its outcome then, and every symbol that the user sees is
written.
-/

import BuildLinux.Concrete.KconfigReread

namespace BuildLinux.Concrete.KconfigWriting

open CStrings QuotedLines KconfigExpr KconfigCalculation KconfigValues KconfigEquations KconfigMemo
  KconfigSolution KconfigFile KconfigReread

variable {entry : Type}

/-! ### Marks that go -/

section Marks

variable {config : Config entry} {rank : entry → Nat} {defUser : entry → Bool}
  {done : entry → Prop} {outcomes : Outcomes entry} {bound : Nat} {state : State entry}

theorem Invariant.more {others : entry → Prop}
    (within : ∀ index, Shows config outcomes index → done index → others index)
    (invariant : Invariant config rank defUser done outcomes bound state) :
    Invariant config rank defUser others outcomes bound state where
  settled := invariant.settled
  choice := invariant.choice
  user := invariant.user
  apart := invariant.apart
  marked index below isValid shows :=
    (invariant.marked index below isValid shows).imp_right (within index shows)
  members value choice belongs below isValid whole shows :=
    (invariant.members value choice belongs below isValid whole shows).imp_right
      (within value shows)

theorem Invariant.unmark [DecidableEq entry]
    (invariant : Invariant config rank defUser done outcomes bound state) (index : entry) :
    Invariant config rank defUser (fun other => done other ∨ other = index) outcomes bound
      (state.change index fun cell => { cell with write := false }) := by
  have same : ∀ other, ∃ write,
      state.change index (fun cell => { cell with write := false }) other =
        { (state other) with write := write } ∧ (write = (state other).write ∨ other = index) := by
    intro other
    by_cases isIndex : other = index
    · rw [isIndex]
      exact ⟨false, change_self state index _, Or.inr rfl⟩
    · exact ⟨(state other).write, change_other state _ isIndex, Or.inl rfl⟩
  have marks : ∀ other, Marked done state other →
      Marked (fun other => done other ∨ other = index)
        (state.change index fun cell => { cell with write := false }) other := by
    intro other marked
    obtain ⟨write, cell, kept | isIndex⟩ := same other
    · unfold Marked
      rw [cell, kept]
      exact marked.imp_right Or.inl
    · exact Or.inr (Or.inr isIndex)
  constructor
  · intro other below isValid
    obtain ⟨write, cell, _⟩ := same other
    rw [cell] at isValid ⊢
    obtain ⟨tri, val, chosen, known⟩ := invariant.settled other below isValid
    exact ⟨tri, val, chosen, known⟩
  · intro value choice belongs hasVisibility below isValid
    obtain ⟨_, cell, _⟩ := same value
    obtain ⟨_, choiceCell, _⟩ := same choice
    rw [cell] at isValid
    rw [choiceCell]
    exact invariant.choice value choice belongs hasVisibility below isValid
  · intro other below isInvalid
    obtain ⟨_, cell, _⟩ := same other
    rw [cell] at isInvalid ⊢
    exact invariant.user other below isInvalid
  · intro value isValue
    obtain ⟨_, cell, _⟩ := same value
    rw [cell]
    exact invariant.apart value isValue
  · intro other below isValid shows
    obtain ⟨_, cell, _⟩ := same other
    rw [cell] at isValid
    exact marks other (invariant.marked other below isValid shows)
  · intro value choice belongs below isValid whole shows
    obtain ⟨_, cell, _⟩ := same choice
    rw [cell] at isValid
    exact marks value (invariant.members value choice belongs below isValid whole shows)

end Marks

/-! ### Menus -/

/-- A part of the menus has been written. -/
structure Wrote (config : Config entry) (rank : entry → Nat) (defUser : entry → Bool)
    (outcomes : Outcomes entry) (fuel : Nat) (done : entry → Prop) (menus symbols : List entry)
    (written : State entry × CString) : Prop where
  lines : ∃ listing : List CString, written.2 = listing.flatMap ended ∧
    Written config (outcomes.values config) listing symbols
  invariant : Invariant config rank defUser (fun index => done index ∨ index ∈ symbols) outcomes
    fuel written.1
  listed : ∀ index ∈ symbols, index ∈ menus ∧ ¬IsChoice config index
  shown : ∀ index ∈ menus, ¬IsChoice config index → Shows config outcomes index →
    done index ∨ index ∈ symbols

section Symbols

variable [DecidableEq entry]

def writtenSymbol (config : Config entry) (calculate : State entry → entry → State entry)
    (state : State entry) (index : entry) : List entry :=
  if ¬IsChoice config index ∧ (calculate state index index).write = true ∧
      HasVisibility config index then [index]
  else []

/-- The symbols that `writeMenus` writes, in their order. -/
def writtenSymbols (config : Config entry) (calculate : State entry → entry → State entry) :
    State entry → Menu entry → List entry
  | _, .none => []
  | state, .title prompt visibility list next =>
      let title := writeTitle config calculate state visibility prompt
      let inside := writeMenus config calculate title.1 list
      writtenSymbols config calculate title.1 list ++
        writtenSymbols config calculate inside.1 next
  | state, .symbol index list next =>
      let line := writeSymbol config calculate state index
      let inside := writeMenus config calculate line.1 list
      writtenSymbol config calculate state index ++
        writtenSymbols config calculate line.1 list ++ writtenSymbols config calculate inside.1 next

/-- The symbols in the file that `conf_write` writes. -/
def confWriteSymbols (config : Config entry) (user : User config) (fuel : Nat) (changed : Bool)
    (state : State entry) (menu : Menu entry) : List entry :=
  writtenSymbols config (symCalcValue config user fuel)
    (if changed = true then state else symClearAllValid config user fuel state) menu

end Symbols

section Menus

variable {config : Config entry} {rank : entry → Nat} {defUser : entry → Bool}
  {done : entry → Prop} {outcomes : Outcomes entry} {fuel : Nat} {state : State entry}

theorem Wrote.nothing (invariant : Invariant config rank defUser done outcomes fuel state) :
    Wrote config rank defUser outcomes fuel done [] [] (state, []) where
  lines := ⟨[], rfl, .nil⟩
  invariant := Invariant.more (fun _ _ => Or.inl) invariant
  listed _ inNone := absurd inNone List.not_mem_nil
  shown _ inNone := absurd inNone List.not_mem_nil

theorem Wrote.append {menus symbols others more : List entry} {first second : State entry × CString}
    (wrote : Wrote config rank defUser outcomes fuel done menus symbols first)
    (later : Wrote config rank defUser outcomes fuel (fun index => done index ∨ index ∈ symbols)
      others more second) :
    Wrote config rank defUser outcomes fuel done (menus ++ others) (symbols ++ more)
      (second.1, first.2 ++ second.2) where
  lines := by
    obtain ⟨listing, isText, written⟩ := wrote.lines
    obtain ⟨rest, isRest, writtenRest⟩ := later.lines
    refine ⟨listing ++ rest, ?_, written.append writtenRest⟩
    rw [List.flatMap_append, ← isText, ← isRest]
  invariant := Invariant.more (fun index _ known => by
    rw [List.mem_append, ← or_assoc]
    exact known) later.invariant
  listed index inSymbols := by
    rcases List.mem_append.mp inSymbols with inFirst | inSecond
    · obtain ⟨inMenus, single⟩ := wrote.listed index inFirst
      exact ⟨List.mem_append_left others inMenus, single⟩
    · obtain ⟨inMenus, single⟩ := later.listed index inSecond
      exact ⟨List.mem_append_right menus inMenus, single⟩
  shown index inMenus single shows := by
    rw [List.mem_append, ← or_assoc]
    rcases List.mem_append.mp inMenus with inFirst | inSecond
    · exact Or.inl (wrote.shown index inFirst single shows)
    · exact later.shown index inSecond single shows

variable [DecidableEq entry] (ranked : Ranked config rank) (within : ∀ index, rank index < fuel)
  (user : User config) (solves : Solves config user defUser outcomes)

include ranked within solves

theorem writeTitle_wrote (visibility : Option (Expr entry))
    (prompt : Option (CString × Option (Expr entry)))
    (titled : ∀ text visible, prompt = some (text, visible) → '\n' ∉ text ∧ ¬configPrefix <+: text)
    (invariant : Invariant config rank defUser done outcomes fuel state) :
    Wrote config rank defUser outcomes fuel done [] []
      (writeTitle config (symCalcValue config user fuel) state visibility prompt) := by
  have lower : Lower config rank defUser done outcomes fuel (symCalcValue config user fuel) :=
    symCalcValue_lower ranked user solves fuel fuel (Nat.le_refl _)
  have known {before : State entry} {dep : Option (Expr entry)} : ∀ e ∈ dep,
      KnownIn rank outcomes fuel (outcomes.values config) before e :=
    fun _ _ other _ => Or.inl ⟨within other, rfl, rfl⟩
  cases prompt with
  | none => exact Wrote.nothing invariant
  | some prompt =>
      obtain ⟨text, visible⟩ := prompt
      obtain ⟨single, plain⟩ := titled text visible rfl
      have shown {before : State entry} (isSound : Invariant config rank defUser done outcomes fuel
          before) (dep : Option (Expr entry)) : Step config rank defUser done outcomes fuel before
            (calcCondition config (symCalcValue config user fuel) before dep).1 :=
        (calcCondition_spec lower rfl isSound known).1
      have first := shown invariant visibility
      have second := shown first.invariant visible
      have ends : Invariant config rank defUser done outcomes fuel
          (titleIsVisible config (symCalcValue config user fuel) state visibility visible).1 := by
        unfold titleIsVisible
        dsimp only
        split
        · exact first.invariant
        · exact second.invariant
      unfold writeTitle
      dsimp only
      split
      · refine ⟨⟨[[], ['#'], '#' :: ' ' :: text, ['#']], ?_, written_idle ?_⟩,
          Invariant.more (fun _ _ => Or.inl) ends, fun _ inNone => absurd inNone List.not_mem_nil,
          fun _ inNone => absurd inNone List.not_mem_nil⟩
        · simp [ended]
        · intro line inLines
          simp only [List.mem_cons, List.not_mem_nil, or_false] at inLines
          rcases inLines with same | same | same | same
          · exact Or.inl same
          · exact Or.inr (Or.inl same)
          · exact Or.inr (Or.inr ⟨text, same, single, plain⟩)
          · exact Or.inr (Or.inl same)
      · exact Wrote.nothing ends

omit [DecidableEq entry] ranked within solves in
theorem symbolLine_agree {first second : Values entry} (modules : first.modules = second.modules)
    {index : entry} (tri : first.tri index = second.tri index)
    (val : first.val index = second.val index) :
    symbolLine config first index = symbolLine config second index := by
  have same : symGetStringValue config.table first (.entry index) =
      symGetStringValue config.table second (.entry index) := by
    unfold symGetStringValue
    dsimp only
    rw [tri, val, modules]
  unfold symbolLine writtenValue
  rw [same]

theorem writeSymbol_wrote (index : entry)
    (invariant : Invariant config rank defUser done outcomes fuel state) :
    Wrote config rank defUser outcomes fuel done [index]
      (writtenSymbol config (symCalcValue config user fuel) state index)
      (writeSymbol config (symCalcValue config user fuel) state index) := by
  unfold writeSymbol writtenSymbol
  by_cases isChoice : IsChoice config index
  · rw [if_pos isChoice, if_neg fun written => written.1 isChoice]
    refine ⟨⟨[], rfl, .nil⟩, Invariant.more (fun _ _ => Or.inl) invariant,
      fun _ inNone => absurd inNone List.not_mem_nil, fun other isIndex single => ?_⟩
    cases List.mem_singleton.mp isIndex
    exact absurd isChoice single
  rw [if_neg isChoice]
  have lower : Lower config rank defUser done outcomes fuel (symCalcValue config user fuel) :=
    symCalcValue_lower ranked user solves fuel fuel (Nat.le_refl _)
  obtain ⟨calculated, _, isValid⟩ := lower.works index (within index) state invariant
  dsimp only
  by_cases marked : (symCalcValue config user fuel state index index).write = true
  · rw [if_pos marked]
    have unmarked := Invariant.unmark calculated index
    have settles := calculated.settled index (within index) isValid
    by_cases hasVisibility : HasVisibility config index
    · have tri := settles.tri
      have val := settles.val
      rw [if_pos ⟨isChoice, marked, hasVisibility⟩]
      refine ⟨⟨[symbolLine config (outcomes.values config) index], ?_,
        .symbol hasVisibility .nil⟩, Invariant.more (fun other _ => Or.imp_right fun isIndex =>
          List.mem_singleton.mpr isIndex) unmarked, fun other isIndex => ?_,
        fun other isIndex _ _ => Or.inr isIndex⟩
      · rw [List.flatMap_singleton, writeSymbol_line hasVisibility]
        refine congrArg ended ?_
        refine symbolLine_agree ?_ ?_ ?_
        · rfl
        · change (State.change _ index _ index).tri = _
          rw [change_self]
          exact tri
        · change (State.change _ index _ index).val = _
          rw [change_self]
          exact val
      · rw [List.mem_singleton.mp isIndex]
        exact ⟨List.mem_cons_self, isChoice⟩
    · rw [if_neg fun written => hasVisibility written.2.2]
      refine ⟨⟨[], writeSymbol_nothing hasVisibility, .nil⟩, Invariant.more
        (fun other shows => Or.imp_right fun isIndex => ?_) unmarked,
        fun _ inNone => absurd inNone List.not_mem_nil, fun other isIndex _ shows => ?_⟩
      · exact absurd (isIndex ▸ shows.hasVisibility) hasVisibility
      · exact absurd (List.mem_singleton.mp isIndex ▸ shows.hasVisibility) hasVisibility
  · rw [if_neg marked, if_neg fun written => marked written.2.1]
    refine ⟨⟨[], rfl, .nil⟩, Invariant.more (fun _ _ => Or.inl) calculated,
      fun _ inNone => absurd inNone List.not_mem_nil, fun other isIndex _ shows => ?_⟩
    cases List.mem_singleton.mp isIndex
    exact Or.inl ((calculated.marked index (within index) isValid shows).resolve_left marked)

theorem writeMenus_wrote (menu : Menu entry)
    (titled : ∀ text ∈ menu.titles, '\n' ∉ text ∧ ¬configPrefix <+: text)
    (invariant : Invariant config rank defUser done outcomes fuel state) :
    Wrote config rank defUser outcomes fuel done menu.symbols
      (writtenSymbols config (symCalcValue config user fuel) state menu)
      (writeMenus config (symCalcValue config user fuel) state menu) := by
  induction menu generalizing state done with
  | none => exact Wrote.nothing invariant
  | title prompt visibility list next ihList ihNext =>
      unfold Menu.titles at titled
      have title := writeTitle_wrote ranked within user solves visibility prompt
        (fun text visible isPrompt => titled text (by rw [isPrompt]; simp)) invariant
      have front := title.append
        (ihList (fun text inside => titled text (by simp [inside])) title.invariant)
      exact front.append
        (ihNext (fun text behind => titled text (by simp [behind])) front.invariant)
  | symbol index list next ihList ihNext =>
      unfold Menu.titles at titled
      have line := writeSymbol_wrote ranked within user solves index invariant
      have front := line.append
        (ihList (fun text inside => titled text (by simp [inside])) line.invariant)
      exact front.append
        (ihNext (fun text behind => titled text (by simp [behind])) front.invariant)

end Menus

end BuildLinux.Concrete.KconfigWriting
