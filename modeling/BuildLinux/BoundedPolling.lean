/-
Polling with a bounded number of attempts.

A caller takes one answer after another until one is accepted or its attempts
are used up.  What it ends with is the first accepted answer among the answers
of its attempts, or nothing when none of them is accepted.
-/

import Mathlib.Data.List.Range
import Mathlib.Tactic.Common

namespace BuildLinux.BoundedPolling

variable {answer : Type}

/-- The index of the answer that ends the polling, from an index on. -/
def poll (accepts : answer → Bool) (answers : Nat → answer) : Nat → Nat → Option Nat
  | 0, _ => none
  | attempts + 1, next =>
      if accepts (answers next) then some next else poll accepts answers attempts (next + 1)

/-- The answers taken. -/
def taken (accepts : answer → Bool) (answers : Nat → answer) : Nat → Nat → List answer
  | 0, _ => []
  | attempts + 1, next =>
      if accepts (answers next) then [answers next]
      else answers next :: taken accepts answers attempts (next + 1)

variable (accepts : answer → Bool) (answers : Nat → answer)

theorem poll_eq_some_iff (attempts next index : Nat) :
    poll accepts answers attempts next = some index ↔
      next ≤ index ∧ index < next + attempts ∧ accepts (answers index) = true ∧
        ∀ earlier, next ≤ earlier → earlier < index → accepts (answers earlier) = false := by
  induction attempts generalizing next with
  | zero =>
      constructor
      · intro impossible
        cases impossible
      · rintro ⟨above, below, _⟩
        omega
  | succ attempts ih =>
      unfold poll
      by_cases first : accepts (answers next) = true
      · rw [if_pos first, Option.some.injEq]
        constructor
        · intro same
          subst same
          exact ⟨Nat.le_refl _, by omega, first, fun earlier above below => by omega⟩
        · rintro ⟨above, _, _, rejected⟩
          by_contra different
          have nextRejected := rejected next (Nat.le_refl _) (by omega)
          rw [first] at nextRejected
          cases nextRejected
      · rw [if_neg first, ih]
        have firstRejected := Bool.eq_false_iff.mpr first
        constructor
        · rintro ⟨above, below, accepted, rejected⟩
          refine ⟨by omega, by omega, accepted, fun earlier atLeast before => ?_⟩
          by_cases same : earlier = next
          · rw [same]
            exact firstRejected
          · exact rejected earlier (by omega) before
        · rintro ⟨above, below, accepted, rejected⟩
          have different : index ≠ next := by
            intro same
            rw [same, firstRejected] at accepted
            cases accepted
          exact ⟨by omega, by omega, accepted,
            fun earlier atLeast before => rejected earlier (by omega) before⟩

theorem poll_isSome_iff (attempts next : Nat) :
    (poll accepts answers attempts next).isSome = true ↔
      ∃ index, next ≤ index ∧ index < next + attempts ∧ accepts (answers index) = true := by
  induction attempts generalizing next with
  | zero =>
      constructor
      · intro impossible
        cases impossible
      · rintro ⟨index, above, below, _⟩
        omega
  | succ attempts ih =>
      unfold poll
      by_cases first : accepts (answers next) = true
      · rw [if_pos first]
        exact ⟨fun _ => ⟨next, Nat.le_refl _, by omega, first⟩, fun _ => rfl⟩
      · rw [if_neg first, ih]
        constructor
        · rintro ⟨index, above, below, accepted⟩
          exact ⟨index, by omega, by omega, accepted⟩
        · rintro ⟨index, above, below, accepted⟩
          have different : index ≠ next := by
            intro same
            rw [same] at accepted
            exact first accepted
          exact ⟨index, by omega, by omega, accepted⟩

theorem taken_length_le (attempts next : Nat) :
    (taken accepts answers attempts next).length ≤ attempts := by
  induction attempts generalizing next with
  | zero => exact Nat.le_refl 0
  | succ attempts ih =>
      unfold taken
      split
      · exact Nat.succ_le_succ (Nat.zero_le attempts)
      · exact Nat.succ_le_succ (ih (next + 1))

/-- The answers taken are those up to the accepted one. -/
theorem taken_of_accepted {attempts next index : Nat}
    (ends : poll accepts answers attempts next = some index) :
    taken accepts answers attempts next =
      (List.range' next (index + 1 - next)).map answers := by
  induction attempts generalizing next with
  | zero => cases ends
  | succ attempts ih =>
      unfold poll at ends
      unfold taken
      by_cases first : accepts (answers next) = true
      · rw [if_pos first, Option.some.injEq] at ends
        rw [if_pos first, ← ends, Nat.add_sub_cancel_left, List.range'_one, List.map_singleton]
      · rw [if_neg first] at ends
        have above := ((poll_eq_some_iff accepts answers attempts (next + 1) index).mp ends).1
        have counted : index + 1 - next = (index + 1 - (next + 1)) + 1 := by omega
        rw [if_neg first, ih ends, counted, List.range'_succ, List.map_cons]

end BuildLinux.BoundedPolling
