/-
A component that owes at most one reply at a time.

It accepts a request only while it owes nothing, owes the answer to that
request afterwards, if there is one, and is free again once the answer has been
given.  The answer may depend on more than the request, so it is a relation.
Answers given are balanced against requests that deserve one, and every answer
given has its request in the earlier part of the history.
-/

import BuildLinux.TransitionSystem

namespace BuildLinux.Responder

open TransitionSystem (System Runs)

variable {request reply : Type}

inductive Action (request reply : Type) where
  | receive (received : request)
  | give (given : reply)

inductive Step (answers : request → Option reply → Prop) :
    Option reply → Action request reply → Option reply → Prop where
  | receive {received : request} {answer : Option reply} (answered : answers received answer) :
      Step answers none (.receive received) answer
  | give (given : reply) : Step answers (some given) (.give given) none

/-- The responder with the given answers; its state is what it owes. -/
def responder (answers : request → Option reply → Prop) :
    System (Option reply) (Action request reply) :=
  { Initial := fun owed => owed = none
    Step := Step answers }

def Action.received? : Action request reply → Option request
  | .receive item => some item
  | .give _ => none

def Action.given? : Action request reply → Option reply
  | .receive _ => none
  | .give item => some item

def received (history : List (Action request reply)) : List request :=
  history.filterMap Action.received?

def given (history : List (Action request reply)) : List reply :=
  history.filterMap Action.given?

variable {answers : request → Option reply → Prop} {history : List (Action request reply)}
  {owed : Option reply}

theorem balance (run : Runs (responder answers) history owed) (deserves : request → Bool)
    (exact : ∀ item ∈ received history, ∀ answer, answers item answer →
      answer.isSome = deserves item) :
    (given history).length + owed.toList.length = (received history).countP deserves := by
  revert exact
  refine run.invariant
    (fun history owed => (∀ item ∈ received history, ∀ answer, answers item answer →
      answer.isSome = deserves item) →
      (given history).length + owed.toList.length = (received history).countP deserves) ?_ ?_
  · intro owed starts _exact
    change owed = none at starts
    rw [starts]
    rfl
  · intro history before act after _earlier balanced step exact
    cases step with
    | @receive item answer answered =>
        have earlier := balanced fun other member =>
          exact other (List.mem_cons_of_mem item member)
        have kind := exact item List.mem_cons_self after answered
        change (given history).length + after.toList.length =
          (item :: received history).countP deserves
        rw [List.countP_cons, ← earlier, ← kind]
        cases after <;> simp
    | give item => exact balanced exact

theorem owed_caused (run : Runs (responder answers) history owed) :
    ∀ item, owed = some item → ∃ cause ∈ received history, answers cause (some item) := by
  refine run.invariant
    (fun history owed => ∀ item, owed = some item →
      ∃ cause ∈ received history, answers cause (some item)) ?_ ?_
  · intro owed starts item isOwed
    change owed = none at starts
    rw [starts] at isOwed
    cases isOwed
  · intro history before act after _earlier _caused step item isOwed
    cases step with
    | @receive cause answer answered =>
        subst isOwed
        exact ⟨cause, List.mem_cons_self, answered⟩
    | give given => cases isOwed

/-- Every answer given has its request before it. -/
theorem given_caused (later : List (Action request reply))
    {earlier : List (Action request reply)} {item : reply}
    (run : Runs (responder answers) (later ++ .give item :: earlier) owed) :
    ∃ cause ∈ received earlier, answers cause (some item) := by
  obtain ⟨middle, prefixRun⟩ := run.earlierPart
  cases prefixRun with
  | next before step =>
      cases step
      exact owed_caused before item rfl

theorem given_answers (run : Runs (responder answers) history owed) :
    ∀ item ∈ given history, ∃ cause, answers cause (some item) := by
  intro item member
  obtain ⟨act, inHistory, gives⟩ := List.mem_filterMap.mp member
  cases act with
  | receive request => cases gives
  | give same =>
      cases gives
      obtain ⟨later, earlier, split⟩ := List.append_of_mem inHistory
      subst split
      obtain ⟨cause, _, answered⟩ := given_caused later run
      exact ⟨cause, answered⟩

end BuildLinux.Responder
