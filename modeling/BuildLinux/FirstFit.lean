/-
The first item of a list that is wanted, marked where it stands.

A search that fails leaves the list; one that succeeds changes this item only,
and everything before it was not wanted.  A table of slots that is only ever
filled at its first empty slot stays filled from the front.
-/

import Mathlib.Data.List.Basic

namespace BuildLinux.FirstFit

variable {item : Type}

def markFirst (wanted : item → Bool) (mark : item → item) : List item → Option (item × List item)
  | [] => none
  | first :: rest =>
      if wanted first then some (first, mark first :: rest)
      else (markFirst wanted mark rest).map fun found => (found.1, first :: found.2)

theorem markFirst_some {wanted : item → Bool} {mark : item → item} {items after : List item}
    {found : item} (search : markFirst wanted mark items = some (found, after)) :
    wanted found = true ∧ ∃ before rest, items = before ++ found :: rest ∧
      after = before ++ mark found :: rest ∧ ∀ other ∈ before, wanted other = false := by
  induction items generalizing after with
  | nil => cases search
  | cons first rest ih =>
      rw [markFirst] at search
      cases isWanted : wanted first with
      | true =>
          rw [isWanted, if_pos rfl] at search
          cases search
          exact ⟨isWanted, [], rest, rfl, rfl, fun other member => nomatch member⟩
      | false =>
          rw [isWanted, if_neg Bool.false_ne_true] at search
          obtain ⟨later, inRest, result⟩ := Option.map_eq_some_iff.mp search
          cases result
          obtain ⟨foundWanted, before, behind, split, marked, skipped⟩ := ih inRest
          refine ⟨foundWanted, first :: before, behind, ?_, ?_, ?_⟩
          · rw [split, List.cons_append]
          · rw [marked, List.cons_append]
          · intro other member
            rcases List.mem_cons.mp member with isFirst | inBefore
            · rw [isFirst, isWanted]
            · exact skipped other inBefore

theorem markFirst_none {wanted : item → Bool} {mark : item → item} {items : List item} :
    markFirst wanted mark items = none ↔ ∀ other ∈ items, wanted other = false := by
  induction items with
  | nil =>
      constructor
      · exact fun _ other member => nomatch member
      · exact fun _ => rfl
  | cons first rest ih =>
      rw [markFirst, List.forall_mem_cons]
      cases isWanted : wanted first with
      | true =>
          rw [if_pos rfl]
          constructor
          · exact fun search => nomatch search
          · rintro ⟨notWanted, _⟩
            cases notWanted
      | false =>
          rw [if_neg Bool.false_ne_true, Option.map_eq_none_iff, ih]
          exact (and_iff_right rfl).symm

/-- Every other item stays where one is marked. -/
theorem mem_marked {before rest : List item} {found other : item}
    (member : other ∈ before ++ found :: rest) (different : other ≠ found) (marked : item) :
    other ∈ before ++ marked :: rest := by
  rcases List.mem_append.mp member with inBefore | behind
  · exact List.mem_append_left _ inBefore
  · rcases List.mem_cons.mp behind with isFound | inRest
    · exact absurd isFound different
    · exact List.mem_append_right _ (List.mem_cons_of_mem _ inRest)

/-! ### Tables filled from the front -/

/-- A table of the given size that holds the items in its first slots. -/
def slots (size : Nat) (items : List item) : List (Option item) :=
  items.map some ++ List.replicate (size - items.length) none

theorem slots_cons (size : Nat) (first : item) (rest : List item) :
    slots size (first :: rest) = some first :: slots (size - 1) rest := by
  have room : size - (rest.length + 1) = size - 1 - rest.length := by omega
  rw [slots, slots, List.length_cons, room]
  rfl

theorem fill_slots (size : Nat) (items : List item) (arrived : item) :
    markFirst Option.isNone (fun _ => some arrived) (slots size items) =
      if items.length < size then some (none, slots size (items ++ [arrived])) else none := by
  induction items generalizing size with
  | nil =>
      cases size with
      | zero => rfl
      | succ size => rfl
  | cons first rest ih =>
      rw [slots_cons, markFirst, if_neg (by simp), ih, List.length_cons, List.cons_append,
        slots_cons]
      by_cases room : rest.length < size - 1
      · rw [if_pos room, if_pos (by omega)]
        rfl
      · rw [if_neg room, if_neg (by omega)]
        rfl

theorem filterMap_slots {result : Type} (size : Nat) (items : List item)
    (pick : item → Option result) :
    (slots size items).filterMap (fun slot => slot.bind pick) = items.filterMap pick := by
  rw [slots, List.filterMap_append, List.filterMap_map, List.filterMap_replicate_of_none rfl,
    List.append_nil]
  rfl

end BuildLinux.FirstFit
