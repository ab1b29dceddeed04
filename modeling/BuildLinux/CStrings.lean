/-
Strings in C arrays: bounded copies, the last occurrence of a character, and
paths that stay under a directory.

A string is the list of its characters before the terminating zero.  A copy
into an array is cut where the array ends.
-/

import Mathlib.Data.List.TakeDrop

namespace BuildLinux.CStrings

abbrev CString := List Char

/-- What `snprintf` leaves in an array, and `strncpy` with the zero put at its end. -/
def bounded (size : Nat) (text : CString) : CString := text.take (size - 1)

theorem bounded_short {size : Nat} {text : CString} (short : text.length < size) :
    bounded size text = text :=
  List.take_of_length_le (Nat.le_pred_of_lt short)

/-- The order of the first characters that differ. -/
def strcmp : CString → CString → Ordering
  | [], [] => .eq
  | [], _ :: _ => .lt
  | _ :: _, [] => .gt
  | first :: rest, other :: others =>
      if first = other then strcmp rest others
      else if first.toNat < other.toNat then .lt else .gt

theorem strcmp_eq_iff {left right : CString} : strcmp left right = .eq ↔ left = right := by
  induction left generalizing right with
  | nil =>
      cases right with
      | nil => exact ⟨fun _ => rfl, fun _ => rfl⟩
      | cons other others => exact ⟨nofun, nofun⟩
  | cons first rest ih =>
      cases right with
      | nil => exact ⟨nofun, nofun⟩
      | cons other others =>
          unfold strcmp
          by_cases same : first = other
          · rw [if_pos same, ih, same, List.cons_inj_right]
          · rw [if_neg same]
            constructor
            · split
              · exact nofun
              · exact nofun
            · intro equal
              exact absurd (List.cons.inj equal).1 same

def strrchr (letter : Char) : CString → Option Nat
  | [] => none
  | first :: rest =>
      match strrchr letter rest with
      | some index => some (index + 1)
      | none => if first = letter then some 0 else none

theorem strrchr_none {letter : Char} {text : CString} (absent : strrchr letter text = none)
    (index : Nat) : text[index]? ≠ some letter := by
  induction text generalizing index with
  | nil => nofun
  | cons first rest ih =>
      unfold strrchr at absent
      cases inRest : strrchr letter rest with
      | some later =>
          rw [inRest] at absent
          cases absent
      | none =>
          rw [inRest] at absent
          cases index with
          | zero =>
              intro isFirst
              cases isFirst
              exact Option.some_ne_none _ ((if_pos rfl).symm.trans absent)
          | succ index => exact ih inRest index

/-- The search looks behind first. -/
theorem strrchr_concat (letter : Char) (front rest : CString) :
    strrchr letter (front ++ rest) =
      match strrchr letter rest with
      | some index => some (front.length + index)
      | none => strrchr letter front := by
  induction front with
  | nil =>
      rw [List.nil_append]
      cases strrchr letter rest with
      | none => rfl
      | some index => exact congrArg some (Nat.zero_add index).symm
  | cons first others ih =>
      rw [List.cons_append, strrchr, ih]
      cases strrchr letter rest with
      | none => rfl
      | some index =>
          dsimp only
          rw [List.length_cons, Nat.add_right_comm]

theorem strrchr_absent {letter : Char} {text : CString} (absent : letter ∉ text) :
    strrchr letter text = none := by
  induction text with
  | nil => rfl
  | cons first rest ih =>
      rw [List.mem_cons, not_or] at absent
      rw [strrchr, ih absent.2]
      exact if_neg (Ne.symm absent.1)

/-- The search ends at an occurrence with none behind it. -/
theorem strrchr_append {letter : Char} {rest : CString} (absent : letter ∉ rest)
    (front : CString) : strrchr letter (front ++ letter :: rest) = some front.length := by
  have first : strrchr letter (letter :: rest) = some 0 := by
    rw [strrchr, strrchr_absent absent]
    exact if_pos rfl
  rw [strrchr_concat, first]
  rfl

theorem strrchr_lt {letter : Char} {text : CString} {last : Nat}
    (found : strrchr letter text = some last) : last < text.length := by
  induction text generalizing last with
  | nil => cases found
  | cons first rest ih =>
      rw [strrchr] at found
      cases inRest : strrchr letter rest with
      | some later =>
          rw [inRest] at found
          cases found
          exact Nat.succ_lt_succ (ih inRest)
      | none =>
          rw [inRest] at found
          obtain ⟨_, isLast⟩ := Option.ite_none_right_eq_some.mp found
          cases isLast
          exact Nat.succ_pos _

theorem strrchr_found {letter : Char} {text : CString} {last : Nat}
    (found : strrchr letter text = some last) : text[last]? = some letter := by
  induction text generalizing last with
  | nil => cases found
  | cons first rest ih =>
      rw [strrchr] at found
      cases inRest : strrchr letter rest with
      | some later =>
          rw [inRest] at found
          cases found
          exact ih inRest
      | none =>
          rw [inRest] at found
          obtain ⟨isFirst, isLast⟩ := Option.ite_none_right_eq_some.mp found
          cases isLast
          exact congrArg some isFirst

theorem strrchr_none_absent {letter : Char} {text : CString}
    (absent : strrchr letter text = none) : letter ∉ text := by
  intro member
  obtain ⟨index, found⟩ := List.mem_iff_getElem?.mp member
  exact strrchr_none absent index found

theorem bounded_length (size : Nat) (text : CString) : (bounded size text).length ≤ size - 1 :=
  List.length_take_le _ _

theorem strrchr_last {letter : Char} {text : CString} {last : Nat}
    (found : strrchr letter text = some last) {index : Nat} (occurs : text[index]? = some letter) :
    index ≤ last := by
  induction text generalizing index last with
  | nil => cases occurs
  | cons first rest ih =>
      cases index with
      | zero => exact Nat.zero_le last
      | succ index =>
          unfold strrchr at found
          cases inRest : strrchr letter rest with
          | some later =>
              rw [inRest] at found
              cases found
              exact Nat.succ_le_succ (ih inRest occurs)
          | none => exact absurd occurs (strrchr_none inRest index)

/-! ### Paths under a directory -/

/-- The directory itself, or a path that begins with it and a slash. -/
def Under (base path : CString) : Prop :=
  path = base ∨ base ++ ['/'] <+: path

theorem under_child {base path : CString} (under : Under base path) (name : CString) :
    Under base (path ++ '/' :: name) := by
  refine Or.inr ?_
  rcases under with rfl | below
  · exact ⟨name, List.append_assoc _ _ _⟩
  · exact below.trans (List.prefix_append path _)

theorem under_bounded {base path : CString} {size : Nat} (fits : base.length + 1 < size)
    (under : Under base path) : Under base (bounded size path) := by
  rcases under with rfl | below
  · exact Or.inl (bounded_short (Nat.lt_of_succ_lt fits))
  · refine Or.inr (List.prefix_take_iff.mpr ⟨below, ?_⟩)
    rw [List.length_append]
    exact Nat.le_pred_of_lt fits

/-- Cutting at the last slash leads no further up than the directory. -/
theorem under_cut {base path : CString} {last : Nat} (below : base ++ ['/'] <+: path)
    (found : strrchr '/' path = some last) : Under base (path.take last) := by
  obtain ⟨rest, rfl⟩ := below
  have slash : (base ++ ['/'] ++ rest)[base.length]? = some '/' := by
    rw [List.append_assoc, List.getElem?_append_right (Nat.le_refl _), Nat.sub_self]
    rfl
  rcases Nat.eq_or_lt_of_le (strrchr_last found slash) with atSlash | later
  · refine Or.inl ?_
    rw [← atSlash, List.append_assoc]
    exact List.take_left
  · refine Or.inr (List.prefix_take_iff.mpr ⟨List.prefix_append _ _, ?_⟩)
    rw [List.length_append]
    exact later

end BuildLinux.CStrings
