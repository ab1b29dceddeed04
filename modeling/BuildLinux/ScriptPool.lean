/-
Scripts running at the same time on one shared state.

A step is one command of one process, so the commands are atomic and every
order of them is a run.  A process has a private part of the state of its own.
An outline gives each point of a script an assertion; when the steps of a
process establish its next assertion and do not disturb those of the processes
it is apart from, the assertions and a common invariant hold along every run
whose steps are all taken apart.
-/

import BuildLinux.CommandScript
import BuildLinux.TransitionSystem

namespace BuildLinux.ScriptPool

open CommandScript TransitionSystem

structure Process (command data own : Type) where
  script : Script command data Unit
  own : own

structure Pool (command data own shared : Type) where
  processes : List (Process command data own)
  shared : shared

variable {command data choice own shared : Type}

section Steps

variable (exec : command → choice → own × shared → Reply data × own × shared)

def Pool.step (pool : Pool command data own shared) (index : Nat) (chosen : choice) :
    Option (Pool command data own shared) :=
  match pool.processes[index]? with
  | none => none
  | some process =>
      match process.script with
      | .done _ => none
      | .exit _ => none
      | .call issued next =>
          let result := exec issued chosen (process.own, pool.shared)
          some
            { processes := pool.processes.set index
                { script := next result.1, own := result.2.1 }
              shared := result.2.2 }

def interleavings (Initial : Pool command data own shared → Prop) :
    System (Pool command data own shared) (Nat × choice) where
  Initial := Initial
  Step before act after := before.step exec act.1 act.2 = some after

def Pool.steps : List (Nat × choice) → Pool command data own shared →
    Option (Pool command data own shared)
  | [], pool => some pool
  | act :: rest, pool => (pool.step exec act.1 act.2).bind (Pool.steps rest)

variable {exec}

theorem step_inversion {before after : Pool command data own shared} {index : Nat}
    {chosen : choice} (stepped : before.step exec index chosen = some after) :
    ∃ process issued next,
      before.processes[index]? = some process ∧ process.script = .call issued next ∧
        after.processes = before.processes.set index
          { script := next (exec issued chosen (process.own, before.shared)).1
            own := (exec issued chosen (process.own, before.shared)).2.1 } ∧
        after.shared = (exec issued chosen (process.own, before.shared)).2.2 := by
  unfold Pool.step at stepped
  cases found : before.processes[index]? with
  | none =>
      rw [found] at stepped
      cases stepped
  | some process =>
      rw [found] at stepped
      obtain ⟨script, own⟩ := process
      cases script with
      | done result => cases stepped
      | exit status => cases stepped
      | call issued next =>
          cases stepped
          exact ⟨_, issued, next, rfl, rfl, rfl, rfl⟩

variable (exec) in
/-- A process that has a command left can always issue it. -/
theorem step_call {pool : Pool command data own shared} {index : Nat} {issued : command}
    {next : Reply data → Script command data Unit} {own : own}
    (found : pool.processes[index]? = some { script := .call issued next, own := own })
    (chosen : choice) :
    ∃ after, pool.step exec index chosen = some after ∧
      after.shared = (exec issued chosen (own, pool.shared)).2.2 ∧
      after.processes[index]? = some
        { script := next (exec issued chosen (own, pool.shared)).1
          own := (exec issued chosen (own, pool.shared)).2.1 } ∧
      ∀ position, position ≠ index → after.processes[position]? = pool.processes[position]? := by
  unfold Pool.step
  rw [found]
  refine ⟨_, rfl, rfl, ?_, ?_⟩
  · exact List.getElem?_set_self (List.getElem?_eq_some_iff.mp found).1
  · exact fun position differ => List.getElem?_set_ne (Ne.symm differ)

theorem steps_cons {before after : Pool command data own shared} {index : Nat} {chosen : choice}
    (stepped : before.step exec index chosen = some after) (rest : List (Nat × choice)) :
    before.steps exec ((index, chosen) :: rest) = after.steps exec rest := by
  change (before.step exec index chosen).bind _ = _
  rw [stepped]
  rfl

theorem Runs.steps {Initial : Pool command data own shared → Prop} {history : List (Nat × choice)}
    {before : Pool command data own shared} (run : Runs (interleavings exec Initial) history before)
    (acts : List (Nat × choice)) {after : Pool command data own shared}
    (stepped : before.steps exec acts = some after) :
    Runs (interleavings exec Initial) (acts.reverse ++ history) after := by
  induction acts generalizing history before with
  | nil =>
      cases stepped
      exact run
  | cons act rest ih =>
      obtain ⟨middle, first, later⟩ := Option.bind_eq_some_iff.mp stepped
      rw [List.reverse_cons, List.append_assoc]
      exact ih (Runs.next run first) later

def Pool.Apart (apart : Script command data Unit → Script command data Unit → Prop)
    (pool : Pool command data own shared) (index : Nat) : Prop :=
  ∀ mover other position, pool.processes[index]? = some mover → position ≠ index →
    pool.processes[position]? = some other → apart mover.script other.script

variable (exec)

/-- The interleavings in which a process only moves apart from the others. -/
def apartInterleavings (Initial : Pool command data own shared → Prop)
    (apart : Script command data Unit → Script command data Unit → Prop) :
    System (Pool command data own shared) (Nat × choice) where
  Initial := Initial
  Step before act after := before.Apart apart act.1 ∧ before.step exec act.1 act.2 = some after

variable {exec} in
/-- While every other process rests where anything may happen, one process can go on. -/
theorem Runs.alone {Initial : Pool command data own shared → Prop}
    {apart : Script command data Unit → Script command data Unit → Prop}
    {resting : Script command data Unit → Prop}
    (harmless : ∀ mover other, resting other → apart mover other) (index : Nat)
    {history : List (Nat × choice)} {before : Pool command data own shared}
    (run : Runs (apartInterleavings exec Initial apart) history before)
    (rest : ∀ position other, position ≠ index → before.processes[position]? = some other →
      resting other.script)
    (choices : List choice) {after : Pool command data own shared}
    (stepped : before.steps exec (choices.map fun chosen => (index, chosen)) = some after) :
    ∃ later, Runs (apartInterleavings exec Initial apart) later after := by
  induction choices generalizing history before with
  | nil =>
      cases stepped
      exact ⟨history, run⟩
  | cons chosen others ih =>
      obtain ⟨middle, first, remaining⟩ := Option.bind_eq_some_iff.mp stepped
      obtain ⟨_, _, _, _, _, processes, _⟩ := step_inversion first
      have isApart : before.Apart apart index := fun mover other position _ differ found =>
        harmless mover.script other.script (rest position other differ found)
      refine ih (Runs.next run ⟨isApart, first⟩) (fun position other differ found => ?_) remaining
      rw [processes, List.getElem?_set_ne (Ne.symm differ)] at found
      exact rest position other differ found

/-- Assertions at the points of scripts, and why they hold. -/
structure Outline (apart : Script command data Unit → Script command data Unit → Prop)
    (common : shared → Prop) where
  point : Type
  script : point → Script command data Unit
  assertion : point → shared → Prop
  moves : ∀ here issued next chosen own shared, script here = .call issued next →
    common shared → assertion here shared →
      common (exec issued chosen (own, shared)).2.2 ∧
        ∃ there, next (exec issued chosen (own, shared)).1 = script there ∧
          assertion there (exec issued chosen (own, shared)).2.2
  undisturbed : ∀ here other issued next chosen own shared, script here = .call issued next →
    assertion here shared → apart (script here) (script other) → assertion other shared →
      assertion other (exec issued chosen (own, shared)).2.2

variable {exec} {apart : Script command data Unit → Script command data Unit → Prop}
  {common : shared → Prop}

def Outline.Stands (outline : Outline exec apart common)
    (pool : Pool command data own shared) : Prop :=
  ∀ process ∈ pool.processes, ∃ here, process.script = outline.script here ∧
    outline.assertion here pool.shared

theorem Outline.step (outline : Outline exec apart common)
    {before after : Pool command data own shared} {index : Nat} {chosen : choice}
    (inCommon : common before.shared) (stands : outline.Stands before)
    (isApart : before.Apart apart index)
    (stepped : before.step exec index chosen = some after) :
    common after.shared ∧ outline.Stands after := by
  obtain ⟨process, issued, next, found, call, processes, sharedAfter⟩ := step_inversion stepped
  obtain ⟨here, atHere, assertionHere⟩ := stands process (List.mem_of_getElem? found)
  have isCall : outline.script here = .call issued next := atHere.symm.trans call
  obtain ⟨commonAfter, there, atThere, assertionThere⟩ :=
    outline.moves here issued next chosen process.own before.shared isCall inCommon assertionHere
  rw [← sharedAfter] at commonAfter assertionThere
  refine ⟨commonAfter, ?_⟩
  intro other member
  rw [processes] at member
  obtain ⟨position, within⟩ := List.mem_iff_getElem?.mp member
  -- The mover stands at its next point; the others stay, undisturbed.
  by_cases same : position = index
  · subst position
    rw [List.getElem?_set_self (List.getElem?_eq_some_iff.mp found).1] at within
    cases within
    exact ⟨there, atThere, assertionThere⟩
  · rw [List.getElem?_set_ne (Ne.symm same)] at within
    obtain ⟨place, atPlace, assertionPlace⟩ := stands other (List.mem_of_getElem? within)
    refine ⟨place, atPlace, ?_⟩
    have movedApart := isApart process other position found same within
    rw [atHere, atPlace] at movedApart
    rw [sharedAfter]
    exact outline.undisturbed here place issued next chosen process.own before.shared isCall
      assertionHere movedApart assertionPlace

/-- The common invariant along every run taken apart. -/
theorem Outline.invariant (outline : Outline exec apart common)
    {Initial : Pool command data own shared → Prop}
    (initially : ∀ pool, Initial pool → common pool.shared ∧ outline.Stands pool)
    {history : List (Nat × choice)} {final : Pool command data own shared}
    (run : Runs (apartInterleavings exec Initial apart) history final) :
    common final.shared ∧ outline.Stands final := by
  induction run with
  | start starts => exact initially _ starts
  | next earlier step ih => exact outline.step ih.1 ih.2 step.1 step.2

end Steps

end BuildLinux.ScriptPool
