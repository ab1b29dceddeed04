/-
Pathname expansion of unquoted shell words.

A word containing `*`, `?` or `[` is replaced by the existing paths it matches,
component by component, and stands for itself when there are none.  A leading
period is matched by a leading period only.  Words without these characters
always stand for themselves.
-/

import Mathlib.Data.List.Basic
import Mathlib.Data.List.Infix

namespace BuildLinux.PathnameExpansion

def isSpecial (letter : Char) : Bool :=
  letter == '*' || letter == '?' || letter == '['

inductive Token where
  | star
  | any
  | literal (letter : Char)
  | set (negated : Bool) (ranges : List (Char × Char))
  deriving DecidableEq

def simpleToken (letter : Char) : Token :=
  if letter = '*' then .star else if letter = '?' then .any else .literal letter

def setRanges : List Char → List (Char × Char)
  | low :: '-' :: high :: rest => (low, high) :: setRanges rest
  | letter :: rest => (letter, letter) :: setRanges rest
  | [] => []

def setToken (inner : List Char) : Token :=
  match inner with
  | '!' :: rest => .set true (setRanges rest)
  | '^' :: rest => .set true (setRanges rest)
  | _ => .set false (setRanges inner)

/-- The tokens of a pattern.  After a `[` the characters seen since are kept,
latest first, until the bracket closes; an open one stands for itself. -/
def tokens : Option (List Char) → List Char → List Token
  | none, [] => []
  | some seen, [] => .literal '[' :: seen.reverse.map simpleToken
  | none, letter :: rest =>
      if letter = '[' then tokens (some []) rest else simpleToken letter :: tokens none rest
  | some seen, letter :: rest =>
      if letter = ']' ∧ seen ≠ [] ∧ seen ≠ ['!'] ∧ seen ≠ ['^'] then
        setToken seen.reverse :: tokens none rest
      else tokens (some (letter :: seen)) rest

def Token.accepts (letter : Char) : Token → Bool
  | .star => true
  | .any => true
  | .literal expected => letter == expected
  | .set negated ranges =>
      negated != ranges.any fun range => range.1 ≤ letter && letter ≤ range.2

def matchTokens : List Token → List Char → Bool
  | [], text => text.isEmpty
  | .star :: rest, text => text.tails.any (matchTokens rest)
  | token :: rest, text =>
      match text with
      | [] => false
      | letter :: later => token.accepts letter && matchTokens rest later

def matchName (pattern name : List Char) : Bool :=
  (name.head? != some '.' || pattern.head? == some '.') && matchTokens (tokens none pattern) name

def matchPath : List String → List String → Bool
  | [], [] => true
  | pattern :: patterns, name :: names =>
      matchName pattern.toList name.toList && matchPath patterns names
  | _, _ => false

/-- What an unquoted word stands for among the existing paths. -/
def expand (existing : List (List String)) (word : List String) : List (List String) :=
  if word.any fun name => name.toList.any isSpecial then
    match existing.filter (matchPath word) with
    | [] => [word]
    | found => found
  else [word]

def components (path : List Char) : List String := (path.splitOn '/').map String.ofList

/-- `expand` for paths that are given as texts. -/
def expandText (existing : List (List Char)) (word : List Char) : List (List Char) :=
  if word.any isSpecial then
    match existing.filter fun path => matchPath (components word) (components path) with
    | [] => [word]
    | found => found
  else [word]

/-- A name that the shell leaves as it is. -/
def Plain (name : String) : Prop :=
  ∀ letter ∈ name.toList, isSpecial letter = false

instance (name : String) : Decidable (Plain name) :=
  List.decidableBAll (fun letter => isSpecial letter = false) name.toList

theorem expand_plain (existing : List (List String)) (word : List String)
    (plain : ∀ name ∈ word, Plain name) : expand existing word = [word] := by
  have noSpecial : (word.any fun name => name.toList.any isSpecial) = false := by
    rw [List.any_eq_false]
    intro name member special
    obtain ⟨letter, inName, isOne⟩ := List.any_eq_true.mp special
    rw [plain name member letter inName] at isOne
    cases isOne
  unfold expand
  rw [noSpecial]
  rfl

theorem mem_expand {existing : List (List String)} {word path : List String}
    (member : path ∈ expand existing word) : path ∈ existing ∨ path = word := by
  unfold expand at member
  split at member
  · split at member
    · exact Or.inr (List.mem_singleton.mp member)
    · exact Or.inl (List.mem_filter.mp member).1
  · exact Or.inr (List.mem_singleton.mp member)

/-! ### A literal prefix followed by a star -/

theorem tokens_plain (plain rest : List Char)
    (literal : ∀ letter ∈ plain, isSpecial letter = false) :
    tokens none (plain ++ rest) = plain.map Token.literal ++ tokens none rest := by
  induction plain with
  | nil => rfl
  | cons letter later ih =>
      have here := literal letter List.mem_cons_self
      simp only [isSpecial, Bool.or_eq_false_iff, beq_eq_false_iff_ne] at here
      obtain ⟨⟨notStar, notAny⟩, notSet⟩ := here
      rw [List.cons_append, tokens, if_neg notSet, simpleToken, if_neg notStar, if_neg notAny,
        ih (fun other member => literal other (List.mem_cons_of_mem letter member))]
      rfl

theorem matchTokens_star (text : List Char) : matchTokens [.star] text = true := by
  rw [matchTokens, List.any_eq_true]
  exact ⟨[], (List.mem_tails _ _).mpr (List.nil_suffix), rfl⟩

theorem matchTokens_front (plain text : List Char) :
    matchTokens (plain.map Token.literal ++ [.star]) text = true ↔ plain <+: text := by
  induction plain generalizing text with
  | nil => simp [matchTokens_star]
  | cons letter later ih =>
      cases text with
      | nil => simp [matchTokens]
      | cons first rest =>
          have step : matchTokens ((letter :: later).map Token.literal ++ [.star]) (first :: rest) =
              ((first == letter) && matchTokens (later.map Token.literal ++ [.star]) rest) := rfl
          rw [step, Bool.and_eq_true, ih, List.cons_prefix_cons, beq_iff_eq, eq_comm]

theorem matchName_front (plain name : List Char)
    (literal : ∀ letter ∈ plain, isSpecial letter = false) (nonempty : plain ≠ []) :
    matchName (plain ++ ['*']) name = true ↔ plain <+: name := by
  have shape : tokens none (plain ++ ['*']) = plain.map Token.literal ++ [.star] :=
    tokens_plain plain ['*'] literal
  obtain ⟨letter, later, split⟩ := List.exists_cons_of_ne_nil nonempty
  rw [matchName, shape, Bool.and_eq_true, matchTokens_front]
  constructor
  · exact fun both => both.2
  · intro begins
    refine ⟨?_, begins⟩
    obtain ⟨suffix, whole⟩ := begins
    rw [← whole, split]
    simp only [List.cons_append, List.head?_cons, Bool.or_eq_true, bne_iff_ne, beq_iff_eq]
    exact (Decidable.em (some letter = some '.')).symm

theorem matchPath_front {plain name : String} (isPlain : Plain plain) (nonempty : plain ≠ "") :
    matchPath [plain ++ "*"] [name] = true ↔ plain.toList <+: name.toList := by
  have pattern : (plain ++ "*").toList = plain.toList ++ ['*'] := String.toList_append
  have letters : plain.toList ≠ [] := fun empty => nonempty (String.toList_eq_nil_iff.mp empty)
  rw [← matchName_front plain.toList name.toList isPlain letters, ← pattern]
  simp [matchPath]

/-- `plain*` stands for the existing names that begin with `plain`. -/
theorem mem_expand_star {existing : List (List String)} {plain name : String}
    (isPlain : Plain plain) (nonempty : plain ≠ "") (present : [name] ∈ existing) :
    [name] ∈ expand existing [plain ++ "*"] ↔ plain.toList <+: name.toList := by
  have special : ([plain ++ "*"].any fun word => word.toList.any isSpecial) = true := by
    have pattern : (plain ++ "*").toList = plain.toList ++ ['*'] := String.toList_append
    simp [pattern, isSpecial]
  rw [← matchPath_front isPlain nonempty]
  unfold expand
  rw [if_pos special]
  cases found : existing.filter (matchPath [plain ++ "*"]) with
  | nil =>
      have noMatch := List.filter_eq_nil_iff.mp found [name] present
      change [name] ∈ [[plain ++ "*"]] ↔ _
      refine ⟨fun itself => ?_, fun matched => absurd matched noMatch⟩
      have same : name = plain ++ "*" := (List.cons.inj (List.mem_singleton.mp itself)).1
      rw [matchPath_front isPlain nonempty, same, String.toList_append]
      exact List.prefix_append _ _
  | cons first rest =>
      change [name] ∈ first :: rest ↔ _
      rw [← found, List.mem_filter]
      exact and_iff_right present

end BuildLinux.PathnameExpansion
