/-
Processes counted by the phase they are in.

A step of a pool moves one process from its phase to another one, so that a
count changes by what the old and the new phase contribute.
-/

import Mathlib.Data.List.Basic

namespace BuildLinux.PhaseCounts

variable {phase : Type} {phases : List phase} {index : Nat} {source : phase}

theorem countP_move (counted : phase → Bool) (found : phases[index]? = some source)
    (target : phase) :
    (phases.set index target).countP counted + (if counted source then 1 else 0) =
      phases.countP counted + (if counted target then 1 else 0) := by
  obtain ⟨inRange, isSource⟩ := List.getElem?_eq_some_iff.mp found
  have member : source ∈ phases := List.mem_of_getElem? found
  rw [List.countP_set inRange, isSource]
  by_cases wasCounted : counted source = true
  · have positive : 0 < phases.countP counted := List.countP_pos_iff.mpr ⟨source, member, wasCounted⟩
    rw [if_pos wasCounted]
    omega
  · rw [if_neg wasCounted]
    omega

theorem countP_enter (counted : phase → Bool) (found : phases[index]? = some source)
    (target : phase) (outside : counted source = false) (inside : counted target = true) :
    (phases.set index target).countP counted = phases.countP counted + 1 := by
  have moved := countP_move counted found target
  rw [outside, inside] at moved
  exact moved

theorem countP_leave (counted : phase → Bool) (found : phases[index]? = some source)
    (target : phase) (inside : counted source = true) (outside : counted target = false) :
    (phases.set index target).countP counted + 1 = phases.countP counted := by
  have moved := countP_move counted found target
  rw [outside, inside] at moved
  exact moved

theorem countP_stay (counted : phase → Bool) (found : phases[index]? = some source)
    (target : phase) (same : counted source = counted target) :
    (phases.set index target).countP counted = phases.countP counted := by
  have moved := countP_move counted found target
  rw [same] at moved
  exact Nat.add_right_cancel moved

end BuildLinux.PhaseCounts
