/-
Lines, fields and command substitution of a shell.

Texts are lists of characters.  `grep` selects lines by a pattern in which a
period stands for any character, `awk '{print $1}'` takes the first field of
each line, and a substitution drops the newlines its output ends with.  A
substitution that reads as one word has this word as its first line; one that is
not quoted is split into its fields.
-/

import Mathlib.Data.List.DropRight

namespace BuildLinux.ShellText

abbrev Text := List Char

def lines (text : Text) : List Text := text.splitOn '\n'

def isBlank (letter : Char) : Bool := letter == ' ' || letter == '\t'

/-- `$1` of awk. -/
def firstField (line : Text) : Text :=
  (line.dropWhile isBlank).takeWhile fun letter => !isBlank letter

def matchesFront : Text → Text → Bool
  | [], _ => true
  | expected :: pattern, letter :: text =>
      (expected == '.' || expected == letter) && matchesFront pattern text
  | _ :: _, [] => false

/-- `grep` with a pattern whose only special character is the period. -/
def selects (pattern line : Text) : Bool := line.tails.any (matchesFront pattern)

def isNewline (letter : Char) : Bool := letter == '\n'

/-- `$(command)` for a command that writes these lines. -/
def substitution (output : List Text) : Text :=
  (output.flatMap fun line => line ++ ['\n']).rdropWhile isNewline

/-- The characters of `IFS`. -/
def isSeparator (letter : Char) : Bool := isBlank letter || isNewline letter

/-- The fields of an unquoted text. -/
def fields (text : Text) : List Text :=
  (text.splitOnP isSeparator).filter fun field => !field.isEmpty

theorem newline_not_mem_lines {text line : Text} (member : line ∈ lines text) : '\n' ∉ line := by
  unfold lines at member
  induction text generalizing line with
  | nil =>
      rw [List.splitOn_nil, List.mem_singleton] at member
      rw [member]
      exact List.not_mem_nil
  | cons letter rest ih =>
      rw [List.splitOn_cons_eq_if_modifyHead] at member
      split at member
      · rcases List.mem_cons.mp member with empty | later
        · rw [empty]
          exact List.not_mem_nil
        · exact ih later
      · rename_i notNewline
        obtain ⟨first, others, split⟩ := List.exists_cons_of_ne_nil (List.splitOn_ne_nil '\n' rest)
        rw [split] at member ih
        rcases List.mem_cons.mp member with extended | later
        · rw [extended]
          intro inLine
          rcases List.mem_cons.mp inLine with same | inFirst
          · exact notNewline (beq_iff_eq.mpr same.symm)
          · exact ih List.mem_cons_self inFirst
        · exact ih (List.mem_cons_of_mem first later)

theorem newline_not_mem_firstField {line : Text} (without : '\n' ∉ line) :
    '\n' ∉ firstField line := by
  intro inField
  exact without ((List.dropWhile_sublist _).subset ((List.takeWhile_sublist _).subset inField))

theorem firstField_word (word rest : Text) (letters : ∀ letter ∈ word, isBlank letter = false)
    (nonempty : word ≠ []) : firstField (word ++ ' ' :: rest) = word := by
  obtain ⟨letter, later, split⟩ := List.exists_cons_of_ne_nil nonempty
  have kept : (word ++ ' ' :: rest).dropWhile isBlank = word ++ ' ' :: rest := by
    rw [split, List.cons_append, List.dropWhile_cons_of_neg]
    rw [letters letter (by rw [split]; exact List.mem_cons_self)]
    exact Bool.false_ne_true
  rw [firstField, kept, List.takeWhile_append_of_pos]
  · exact List.append_nil word
  · intro other member
    rw [letters other member]
    rfl

theorem substitution_word {word : Text} (without : '\n' ∉ word) : substitution [word] = word := by
  have output : ([word].flatMap fun line => line ++ ['\n']) = word ++ ['\n'] := List.append_nil _
  rw [substitution, output, List.rdropWhile_concat_pos isNewline word '\n' rfl,
    List.rdropWhile_eq_self_iff]
  intro nonempty last
  have same : word.getLast nonempty = '\n' := beq_iff_eq.mp last
  exact without (same ▸ List.getLast_mem nonempty)

/-- Only the first line of the output can be what the substitution reads as a word. -/
theorem substitution_first {output : List Text} {word : Text} (reads : substitution output = word)
    (nonempty : word ≠ []) (without : '\n' ∉ word) (lines : ∀ line ∈ output, '\n' ∉ line) :
    ∃ rest, output = word :: rest := by
  cases output with
  | nil => exact absurd reads.symm nonempty
  | cons first rest =>
      let text := (first :: rest).flatMap fun line => line ++ ['\n']
      have whole : word ++ text.rtakeWhile isNewline =
          first ++ ('\n' :: rest.flatMap fun line => line ++ ['\n']) := by
        rw [← reads]
        apply List.rdropWhile_append_rtakeWhile.trans
        change (first ++ ['\n']) ++ _ = _
        rw [List.append_assoc]
        rfl
      have newlines : ∀ letter ∈ text.rtakeWhile isNewline, letter = '\n' := by
        intro letter member
        have accepted : isNewline letter = true := List.mem_rtakeWhile_imp member
        exact beq_iff_eq.mp accepted
      have inFirst := lines first List.mem_cons_self
      suffices same : first = word by exact ⟨rest, by rw [same]⟩
      -- The word and the first line begin the same text; neither can reach past a newline.
      rcases List.append_eq_append_iff.mp whole with ⟨more, longer, tail⟩ | ⟨more, longer, tail⟩
      · cases more with
        | nil => rw [longer, List.append_nil]
        | cons letter later =>
            have isOne : letter = '\n' := newlines letter (by rw [tail]; exact List.mem_cons_self)
            rw [longer, isOne] at inFirst
            exact absurd (List.mem_append_right word List.mem_cons_self) inFirst
      · cases more with
        | nil => rw [longer, List.append_nil]
        | cons letter later =>
            have isOne : '\n' = letter := (List.cons.inj tail).1
            rw [longer, ← isOne] at without
            exact absurd (List.mem_append_right first List.mem_cons_self) without

/-! ### Field splitting -/

theorem fields_separated (text rest : Text) {letter : Char} (separates : isSeparator letter = true) :
    fields (text ++ letter :: rest) = fields text ++ fields rest := by
  unfold fields
  rw [List.splitOnP_append_cons text rest separates, List.filter_append]

theorem fields_word {word : Text} (letters : ∀ letter ∈ word, isSeparator letter = false)
    (nonempty : word ≠ []) : fields word = [word] := by
  unfold fields
  rw [List.splitOnP_eq_singleton letters, List.filter_cons_of_pos, List.filter_nil]
  rw [List.isEmpty_eq_false_iff.mpr nonempty]
  rfl

theorem fields_newlines {tail : Text} (newlines : ∀ letter ∈ tail, isNewline letter = true) :
    fields tail = [] := by
  induction tail with
  | nil => rfl
  | cons letter rest ih =>
      have separates : isSeparator letter = true :=
        Bool.or_eq_true_iff.mpr (Or.inr (newlines letter List.mem_cons_self))
      have split : fields (letter :: rest) = fields rest := fields_separated [] rest separates
      rw [split]
      exact ih fun other member => newlines other (List.mem_cons_of_mem letter member)

theorem fields_rdropWhile (text : Text) : fields (text.rdropWhile isNewline) = fields text := by
  have whole : text.rdropWhile isNewline ++ text.rtakeWhile isNewline = text :=
    List.rdropWhile_append_rtakeWhile
  have newlines : ∀ letter ∈ text.rtakeWhile isNewline, isNewline letter = true :=
    fun letter member => List.mem_rtakeWhile_imp member
  cases tail : text.rtakeWhile isNewline with
  | nil =>
      rw [tail, List.append_nil] at whole
      rw [whole]
  | cons letter rest =>
      rw [tail] at whole newlines
      have separates : isSeparator letter = true :=
        Bool.or_eq_true_iff.mpr (Or.inr (newlines letter List.mem_cons_self))
      have split := fields_separated (text.rdropWhile isNewline) rest separates
      rw [whole, fields_newlines fun other member =>
        newlines other (List.mem_cons_of_mem letter member), List.append_nil] at split
      exact split.symm

/-- The fields of an unquoted substitution are those of the lines written. -/
theorem fields_substitution (output : List Text) :
    fields (substitution output) = output.flatMap fields := by
  unfold substitution
  rw [fields_rdropWhile]
  induction output with
  | nil => rfl
  | cons line rest ih =>
      rw [List.flatMap_cons, List.flatMap_cons, List.append_assoc, List.singleton_append,
        fields_separated line _ rfl, ih]

end BuildLinux.ShellText
