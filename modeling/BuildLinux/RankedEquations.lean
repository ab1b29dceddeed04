/-
Equations that have one solution.

The equations give the value of each key from the values of all keys.  Where each
of them reads only keys of a lower rank, there is exactly one solution, and as
many iterations as the rank of a key reach its value from anywhere.
-/

import Mathlib.Logic.Function.Iterate

namespace BuildLinux.RankedEquations

variable {key value : Type}

abbrev Equations (key value : Type) := (key → value) → key → value

/-- The value of a key depends only on keys of a lower rank. -/
def Descends (rank : key → Nat) (equations : Equations key value) : Prop :=
  ∀ first second index, (∀ other, rank other < rank index → first other = second other) →
    equations first index = equations second index

def IsSolution (equations : Equations key value) (values : key → value) : Prop :=
  ∀ index, values index = equations values index

/-- Every key, after as many iterations as its rank needs. -/
def solution (rank : key → Nat) (equations : Equations key value) (start : key → value) :
    key → value :=
  fun index => equations^[rank index + 1] start index

variable {rank : key → Nat} {equations : Equations key value}

/-- Enough iterations forget what they started with. -/
theorem iterate_forgets (descends : Descends rank equations) {count : Nat}
    (first second : key → value) {index : key} (enough : rank index < count) :
    equations^[count] first index = equations^[count] second index := by
  induction count generalizing index with
  | zero => exact absurd enough (Nat.not_lt_zero _)
  | succ count ih =>
      rw [Function.iterate_succ_apply', Function.iterate_succ_apply']
      exact descends _ _ index fun other below => ih (by omega)

theorem iterate_reaches (descends : Descends rank equations) (start : key → value)
    {index : key} {count : Nat} (enough : rank index < count) :
    equations^[count] start index = solution rank equations start index := by
  obtain ⟨more, rfl⟩ := Nat.exists_eq_add_of_lt enough
  have split : rank index + more + 1 = (rank index + 1) + more := by omega
  rw [split, Function.iterate_add_apply]
  exact iterate_forgets descends _ _ (Nat.lt_succ_self _)

theorem solution_solves (descends : Descends rank equations) (start : key → value) :
    IsSolution equations (solution rank equations start) := by
  intro index
  change equations^[rank index + 1] start index = _
  rw [Function.iterate_succ_apply']
  exact descends _ _ index fun other below => iterate_reaches descends start below

theorem solution_unique (descends : Descends rank equations) {first second : key → value}
    (firstSolves : IsSolution equations first) (secondSolves : IsSolution equations second) :
    first = second := by
  have fixed {values : key → value} (solves : IsSolution equations values) (count : Nat) :
      equations^[count] values = values :=
    Function.iterate_fixed (funext fun index => (solves index).symm) count
  funext index
  calc first index = equations^[rank index + 1] first index := by rw [fixed firstSolves]
    _ = equations^[rank index + 1] second index :=
        iterate_forgets descends first second (Nat.lt_succ_self _)
    _ = second index := by rw [fixed secondSolves]

/-- Equations that are the same up to a rank have the same solutions there. -/
theorem solutions_agree {first second : Equations key value} (descends : Descends rank first)
    {firstValues secondValues : key → value} (firstSolves : IsSolution first firstValues)
    (secondSolves : IsSolution second secondValues) {bound : Nat}
    (same : ∀ values index, rank index < bound → first values index = second values index)
    (index : key) (within : rank index < bound) : firstValues index = secondValues index := by
  have agree (count : Nat) : ∀ index, rank index < count → rank index < bound →
      firstValues index = secondValues index := by
    induction count with
    | zero => exact fun index below => absurd below (Nat.not_lt_zero _)
    | succ count ih =>
        intro index below within
        calc firstValues index = first firstValues index := firstSolves index
          _ = first secondValues index :=
              descends _ _ index fun other lower => ih other (by omega) (by omega)
          _ = second secondValues index := same secondValues index within
          _ = secondValues index := (secondSolves index).symm
  exact agree (rank index + 1) index (Nat.lt_succ_self _) within

end BuildLinux.RankedEquations
