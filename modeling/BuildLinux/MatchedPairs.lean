/-
The pairs of two lists that match each other, as both lists grow at their ends.

An item that arrives on one side brings exactly its matches on the other side.
-/

import Mathlib.Data.List.ProdSigma
import Mathlib.Data.List.Nodup

namespace BuildLinux.MatchedPairs

variable {left right : Type}

def matchedPairs (fits : left → right → Bool) (lefts : List left) (rights : List right) :
    List (left × right) :=
  (lefts ×ˢ rights).filter fun pair => fits pair.1 pair.2

theorem mem_matchedPairs {fits : left → right → Bool} {lefts : List left} {rights : List right}
    {first : left} {second : right} :
    (first, second) ∈ matchedPairs fits lefts rights ↔
      first ∈ lefts ∧ second ∈ rights ∧ fits first second = true := by
  rw [matchedPairs, List.mem_filter, List.mem_product, and_assoc]

theorem matchedPairs_nodup {fits : left → right → Bool} {lefts : List left} {rights : List right}
    (leftsDistinct : lefts.Nodup) (rightsDistinct : rights.Nodup) :
    (matchedPairs fits lefts rights).Nodup :=
  (leftsDistinct.product rightsDistinct).filter _

theorem matchedPairs_cons (fits : left → right → Bool) (first : left) (rest : List left)
    (rights : List right) :
    matchedPairs fits (first :: rest) rights =
      ((rights.filter (fits first)).map fun second => (first, second)) ++
        matchedPairs fits rest rights := by
  rw [matchedPairs, List.product_cons, List.filter_append, List.filter_map]
  rfl

/-- A new item on the left brings its matches on the right. -/
theorem matchedPairs_left (fits : left → right → Bool) (lefts : List left) (arrived : left)
    (rights : List right) :
    matchedPairs fits (lefts ++ [arrived]) rights =
      matchedPairs fits lefts rights ++
        (rights.filter (fits arrived)).map fun second => (arrived, second) := by
  induction lefts with
  | nil =>
      rw [List.nil_append, matchedPairs_cons]
      exact List.append_nil _
  | cons first rest ih =>
      rw [List.cons_append, matchedPairs_cons, matchedPairs_cons, ih, List.append_assoc]

/-- A new item on the right brings its matches on the left. -/
theorem matchedPairs_right (fits : left → right → Bool) (lefts : List left) (rights : List right)
    (arrived : right) :
    (matchedPairs fits lefts (rights ++ [arrived])).Perm
      (matchedPairs fits lefts rights ++
        (lefts.filter fun first => fits first arrived).map fun first => (first, arrived)) := by
  induction lefts with
  | nil => exact List.Perm.refl _
  | cons first rest ih =>
      rw [matchedPairs_cons, matchedPairs_cons, List.filter_append, List.map_append,
        List.append_assoc, List.append_assoc]
      apply List.Perm.append_left
      cases matched : fits first arrived with
      | true =>
          have here : [arrived].filter (fits first) = [arrived] := List.filter_cons_of_pos matched
          have there : (first :: rest).filter (fun first => fits first arrived) =
              first :: rest.filter fun first => fits first arrived :=
            List.filter_cons_of_pos matched
          rw [here, there]
          exact (ih.cons (first, arrived)).trans List.perm_middle.symm
      | false =>
          have unmatched : ¬fits first arrived = true := by
            rw [matched]
            exact Bool.false_ne_true
          have here : [arrived].filter (fits first) = [] := List.filter_cons_of_neg unmatched
          have there : (first :: rest).filter (fun first => fits first arrived) =
              rest.filter fun first => fits first arrived := List.filter_cons_of_neg unmatched
          rw [here, there]
          exact ih

end BuildLinux.MatchedPairs
