/-
Runs of a labelled transition system with their histories, latest action first.

An invariant may speak of the history as well as of the state.  A component of
a larger system takes part in some of its actions and stays as it is at the
others; a run of the system then projects to a run of the component, which is
how facts about a component are used inside a composition.
-/

import Mathlib.Data.List.Basic

namespace BuildLinux.TransitionSystem

structure System (state action : Type) where
  Initial : state → Prop
  Step : state → action → state → Prop

variable {state action component label : Type}

inductive Runs (system : System state action) : List action → state → Prop where
  | start {initial : state} (starts : system.Initial initial) : Runs system [] initial
  | next {history : List action} {before after : state} {act : action}
      (earlier : Runs system history before) (step : system.Step before act after) :
      Runs system (act :: history) after

/-- What one step preserves along a run, the whole run preserves. -/
theorem Runs.invariant {system : System state action}
    (holds : List action → state → Prop)
    (initially : ∀ initial, system.Initial initial → holds [] initial)
    (preserved : ∀ history before act after, Runs system history before →
      holds history before → system.Step before act after → holds (act :: history) after)
    {history : List action} {final : state} (run : Runs system history final) :
    holds history final := by
  induction run with
  | start starts => exact initially _ starts
  | @next history before after act earlier step ih =>
      exact preserved history before act after earlier ih step

theorem Runs.earlierPart {system : System state action} {later earlier : List action}
    {final : state} (run : Runs system (later ++ earlier) final) :
    ∃ middle, Runs system earlier middle := by
  induction later generalizing final with
  | nil => exact ⟨final, run⟩
  | cons act rest ih =>
      cases run with
      | next before step => exact ih before

/-- A component either takes part in a step or stays as it is. -/
def TakesPart (part : System component label) (before : component) (act : Option label)
    (after : component) : Prop :=
  match act with
  | none => after = before
  | some act => part.Step before act after

/-- The run of a component inside a run of the whole system. -/
theorem Runs.project {whole : System state action} {part : System component label}
    (view : state → component) (visible : action → Option label)
    (initially : ∀ initial, whole.Initial initial → part.Initial (view initial))
    (steps : ∀ history before act after, Runs whole history before →
      whole.Step before act after →
      TakesPart part (view before) (visible act) (view after))
    {history : List action} {final : state} (run : Runs whole history final) :
    Runs part (history.filterMap visible) (view final) := by
  induction run with
  | start starts => exact Runs.start (initially _ starts)
  | @next history before after act earlier step ih =>
      have taken := steps history before act after earlier step
      rw [List.filterMap_cons]
      cases acts : visible act with
      | none =>
          rw [acts] at taken
          change view after = view before at taken
          rw [taken]
          exact ih
      | some inner =>
          rw [acts] at taken
          exact Runs.next ih taken

/-- The runs whose steps are all of an allowed kind. -/
inductive RunsWhere (system : System state action)
    (allowed : List action → state → action → Prop) : List action → state → Prop where
  | start {initial : state} (starts : system.Initial initial) : RunsWhere system allowed [] initial
  | next {history : List action} {before after : state} {act : action}
      (earlier : RunsWhere system allowed history before) (meets : allowed history before act)
      (step : system.Step before act after) : RunsWhere system allowed (act :: history) after

theorem RunsWhere.run {system : System state action}
    {allowed : List action → state → action → Prop} {history : List action} {final : state}
    (careful : RunsWhere system allowed history final) : Runs system history final := by
  induction careful with
  | start starts => exact Runs.start starts
  | next earlier meets step ih => exact Runs.next ih step

theorem RunsWhere.invariant {system : System state action}
    {allowed : List action → state → action → Prop} (holds : List action → state → Prop)
    (initially : ∀ initial, system.Initial initial → holds [] initial)
    (preserved : ∀ history before act after, holds history before →
      allowed history before act → system.Step before act after → holds (act :: history) after)
    {history : List action} {final : state} (run : RunsWhere system allowed history final) :
    holds history final := by
  induction run with
  | start starts => exact initially _ starts
  | @next history before after act earlier meets step ih =>
      exact preserved history before act after ih meets step

end BuildLinux.TransitionSystem
