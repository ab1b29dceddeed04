/-
Lines that are read one by one, and texts in quotes.

A reader gets each line with the newline that ends it.  In quotes, a backslash
stands before the characters that would end the text or be taken for a backslash.
-/

import Mathlib.Data.List.TakeWhile

namespace BuildLinux.QuotedLines

abbrev Text := List Char

/-! ### Lines -/

/-- The last line may lack its newline. -/
def lines : Text → List Text
  | [] => []
  | letter :: rest =>
      if letter = '\n' then [letter] :: lines rest
      else
        match lines rest with
        | [] => [[letter]]
        | first :: others => (letter :: first) :: others

def ended (line : Text) : Text := line ++ ['\n']

theorem lines_ended {line : Text} (single : '\n' ∉ line) (rest : Text) :
    lines (ended line ++ rest) = ended line :: lines rest := by
  induction line with
  | nil => rfl
  | cons letter later ih =>
      have different : letter ≠ '\n' := fun same => single (same ▸ List.mem_cons_self)
      have found := ih fun inLater => single (List.mem_cons_of_mem letter inLater)
      have step : lines (letter :: (ended later ++ rest)) =
          if letter = '\n' then [letter] :: lines (ended later ++ rest)
          else
            match lines (ended later ++ rest) with
            | [] => [[letter]]
            | first :: others => (letter :: first) :: others := rfl
      rw [found, if_neg different] at step
      exact step

/-- Lines that are written are read back. -/
theorem lines_flatMap {written : List Text} (single : ∀ line ∈ written, '\n' ∉ line) :
    lines (written.flatMap ended) = written.map ended := by
  induction written with
  | nil => rfl
  | cons line rest ih =>
      rw [List.flatMap_cons, List.map_cons, lines_ended (single line List.mem_cons_self),
        ih fun other listed => single other (List.mem_cons_of_mem line listed)]

/-! ### Splitting -/

/-- What stands before the first mark, and behind it. -/
def splitAtMark (mark : Char) (text : Text) : Option (Text × Text) :=
  match text.dropWhile (· ≠ mark) with
  | [] => none
  | _ :: rest => some (text.takeWhile (· ≠ mark), rest)

theorem splitAtMark_append {mark : Char} {front : Text} (absent : mark ∉ front) (rest : Text) :
    splitAtMark mark (front ++ mark :: rest) = some (front, rest) := by
  have others : ∀ letter ∈ front, decide (letter ≠ mark) = true :=
    fun letter inFront => decide_eq_true fun same => absent (same ▸ inFront)
  unfold splitAtMark
  rw [List.dropWhile_append_of_pos others, List.takeWhile_append_of_pos others,
    List.dropWhile_cons_of_neg (by simp), List.takeWhile_cons_of_neg (by simp), List.append_nil]

/-! ### Quotes -/

def isSpecial (letter : Char) : Bool := decide (letter = '"' ∨ letter = '\\')

def escape : Text → Text
  | [] => []
  | letter :: rest =>
      if isSpecial letter = true then '\\' :: letter :: escape rest else letter :: escape rest

def quote (text : Text) : Text := '"' :: (escape text ++ ['"'])

/-- The text up to the closing quote, which must be there. -/
def unquote : Text → Option Text
  | [] => none
  | letter :: rest =>
      if letter = '"' then some []
      else if letter = '\\' then
        match rest with
        | [] => none
        | escaped :: later => (unquote later).map (escaped :: ·)
      else (unquote rest).map (letter :: ·)

theorem unquote_escape (text rest : Text) : unquote (escape text ++ '"' :: rest) = some text := by
  induction text with
  | nil =>
      change unquote ('"' :: rest) = _
      unfold unquote
      exact if_pos rfl
  | cons letter later ih =>
      unfold escape
      split
      · change unquote ('\\' :: letter :: (escape later ++ '"' :: rest)) = _
        unfold unquote
        rw [if_neg (by decide), if_pos rfl]
        dsimp only
        rw [ih]
        rfl
      · rename_i plain
        have noQuote : letter ≠ '"' := fun same => plain (decide_eq_true (Or.inl same))
        have noBackslash : letter ≠ '\\' := fun same => plain (decide_eq_true (Or.inr same))
        change unquote (letter :: (escape later ++ '"' :: rest)) = _
        unfold unquote
        rw [if_neg noQuote, if_neg noBackslash, ih]
        rfl

theorem mem_escape {text : Text} {letter : Char} (plain : isSpecial letter = false)
    (inside : letter ∈ escape text) : letter ∈ text := by
  induction text with
  | nil => exact inside
  | cons first later ih =>
      unfold escape at inside
      split at inside
      · rcases List.mem_cons.mp inside with same | inside
        · rw [same] at plain
          exact absurd plain (by decide)
        · rcases List.mem_cons.mp inside with same | inLater
          · exact same ▸ List.mem_cons_self
          · exact List.mem_cons_of_mem first (ih inLater)
      · rcases List.mem_cons.mp inside with same | inLater
        · exact same ▸ List.mem_cons_self
        · exact List.mem_cons_of_mem first (ih inLater)

theorem newline_not_mem_quote {text : Text} (single : '\n' ∉ text) : '\n' ∉ quote text := by
  intro inside
  rcases List.mem_cons.mp inside with same | inside
  · exact absurd same (by decide)
  · rcases List.mem_append.mp inside with inEscape | inQuote
    · exact single (mem_escape (by decide) inEscape)
    · exact absurd (List.mem_singleton.mp inQuote) (by decide)

end BuildLinux.QuotedLines
