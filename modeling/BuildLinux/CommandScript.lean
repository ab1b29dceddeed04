/-
Scripts of fallible commands, in the manner of a shell.

A script issues one command at a time and goes on by its reply; it returns a
value or ends the process with a status.  What a command does is given by an
arbitrary function of the state and of a choice made by the environment, such
as whether it fails.  Scripts are finite trees, so every run ends.  The
judgement `Ensures` is computed along the script, composes over sequencing and
loops, and is sound for runs under every sequence of admitted choices.
-/

import Mathlib.Data.List.Basic

namespace BuildLinux.CommandScript

/-- The success of a command and what it wrote to its standard output. -/
structure Reply (data : Type) where
  ok : Bool
  out : data

inductive Script (command data value : Type) where
  | done (result : value)
  | exit (status : Nat)
  | call (issued : command) (next : Reply data → Script command data value)

inductive Exit (value : Type) where
  | returned (result : value)
  | exited (status : Nat)

variable {command data value result item choice state : Type}

def Exit.status : Exit value → Nat
  | .returned _ => 0
  | .exited status => status

def Exit.FailsOnly : Exit value → Prop
  | .returned _ => True
  | .exited status => status ≠ 0

namespace Script

def bind (script : Script command data value) (rest : value → Script command data result) :
    Script command data result :=
  match script with
  | .done value => rest value
  | .exit status => .exit status
  | .call issued next => .call issued fun reply => (next reply).bind rest

instance : Monad (Script command data) where
  pure := Script.done
  bind := Script.bind

/-- `"$@" || exit 1`. -/
def run (issued : command) : Script command data Unit :=
  .call issued fun reply => if reply.ok then .done () else .exit 1

def test (issued : command) : Script command data Bool :=
  .call issued fun reply => .done reply.ok

/-- `$(command)`; the status is not looked at. -/
def output (issued : command) : Script command data data :=
  .call issued fun reply => .done reply.out

/-- `command || { body; }` -/
def orElse (issued : command) (body : Script command data Unit) : Script command data Unit :=
  .call issued fun reply => if reply.ok then .done () else body

/-- `command && { body; }` -/
def andThen (issued : command) (body : Script command data Unit) : Script command data Unit :=
  .call issued fun reply => if reply.ok then body else .done ()

def each (body : item → Script command data Unit) : List item → Script command data Unit
  | [] => .done ()
  | word :: rest => (body word).bind fun _ => each body rest

theorem each_map (body : result → Script command data Unit) (word : item → result)
    (words : List item) :
    each body (words.map word) = each (fun word' => body (word word')) words := by
  induction words with
  | nil => rfl
  | cons first rest ih =>
      change (body (word first)).bind (fun _ => each body (rest.map word)) = _
      rw [ih]
      rfl

/-- Another script run as a child process: its status is a value here. -/
def child : Script command data value → Script command data Nat
  | .done _ => .done 0
  | .exit status => .done status
  | .call issued next => .call issued fun reply => (next reply).child

/-- Every command that the script can issue is allowed, and it only exits with a failure. -/
def Issues (allowed : command → Prop) : Script command data value → Prop
  | .done _ => True
  | .exit status => status ≠ 0
  | .call issued next => allowed issued ∧ ∀ reply, (next reply).Issues allowed

theorem Issues.bind {allowed : command → Prop} {script : Script command data value}
    {rest : value → Script command data result} (first : script.Issues allowed)
    (later : ∀ value, (rest value).Issues allowed) : (script.bind rest).Issues allowed := by
  induction script with
  | done value => exact later value
  | exit status => exact first
  | call issued next ih => exact ⟨first.1, fun reply => ih reply (first.2 reply)⟩

theorem Issues.each {allowed : command → Prop} {body : item → Script command data Unit}
    (words : List item) (within : ∀ word ∈ words, (body word).Issues allowed) :
    (Script.each body words).Issues allowed := by
  induction words with
  | nil => trivial
  | cons word rest ih =>
      exact (within word List.mem_cons_self).bind fun _ =>
        ih fun other member => within other (List.mem_cons_of_mem word member)

theorem Issues.ifOk {allowed : command → Prop} {issued : command}
    {yes no : Script command data value} (isAllowed : allowed issued) (inYes : yes.Issues allowed)
    (inNo : no.Issues allowed) :
    (Script.call issued fun reply => if reply.ok then yes else no).Issues allowed := by
  refine ⟨isAllowed, fun reply => ?_⟩
  rcases reply with ⟨ok, out⟩
  cases ok with
  | true => exact inYes
  | false => exact inNo

theorem Issues.run {allowed : command → Prop} {issued : command} (isAllowed : allowed issued) :
    (Script.run issued : Script command data Unit).Issues allowed :=
  Issues.ifOk isAllowed trivial Nat.one_ne_zero

theorem Issues.orElse {allowed : command → Prop} {issued : command}
    {body : Script command data Unit} (isAllowed : allowed issued) (inBody : body.Issues allowed) :
    (Script.orElse issued body).Issues allowed :=
  Issues.ifOk isAllowed trivial inBody

theorem Issues.andThen {allowed : command → Prop} {issued : command}
    {body : Script command data Unit} (isAllowed : allowed issued) (inBody : body.Issues allowed) :
    (Script.andThen issued body).Issues allowed :=
  Issues.ifOk isAllowed inBody trivial

theorem Issues.test {allowed : command → Prop} {issued : command} (isAllowed : allowed issued) :
    (Script.test issued : Script command data Bool).Issues allowed :=
  ⟨isAllowed, fun _ => trivial⟩

theorem Issues.child {allowed : command → Prop} {script : Script command data value}
    (issues : script.Issues allowed) : script.child.Issues allowed := by
  induction script with
  | done value => trivial
  | exit status => trivial
  | call issued next ih => exact ⟨issues.1, fun reply => ih reply (issues.2 reply)⟩

theorem Issues.output {allowed : command → Prop} {issued : command} (isAllowed : allowed issued) :
    (Script.output issued : Script command data data).Issues allowed :=
  ⟨isAllowed, fun _ => trivial⟩

end Script

/-! ### Runs -/

section Runs

variable (exec : command → choice → state → Reply data × state)

/-- How the script ends and in which state, with the choices of the
environment read from the front of an infinite sequence. -/
def eval : Script command data value → (Nat → choice) → state → Exit value × state
  | .done result, _, state => (.returned result, state)
  | .exit status, _, state => (.exited status, state)
  | .call issued next, choices, state =>
      eval (next (exec issued (choices 0) state).1) (fun index => choices (index + 1))
        (exec issued (choices 0) state).2

def states : Script command data value → (Nat → choice) → state → List state
  | .done _, _, _ => []
  | .exit _, _, _ => []
  | .call issued next, choices, state =>
      (exec issued (choices 0) state).2 ::
        states (next (exec issued (choices 0) state).1) (fun index => choices (index + 1))
          (exec issued (choices 0) state).2

/-- Under all admitted choices every command leaves a state with the invariant,
and the script ends as the postcondition says. -/
def Ensures (admitted : choice → Prop) (invariant : state → Prop) :
    Script command data value → (Exit value → state → Prop) → state → Prop
  | .done result, post, state => post (.returned result) state
  | .exit status, post, state => post (.exited status) state
  | .call issued next, post, state =>
      ∀ choice, admitted choice →
        invariant (exec issued choice state).2 ∧
          Ensures admitted invariant (next (exec issued choice state).1) post
            (exec issued choice state).2

variable {exec} {admitted : choice → Prop} {invariant : state → Prop}

theorem Ensures.sound {script : Script command data value} {post : Exit value → state → Prop}
    {initial : state} (ensured : Ensures exec admitted invariant script post initial)
    (choices : Nat → choice) (admits : ∀ index, admitted (choices index)) :
    (∀ reached ∈ states exec script choices initial, invariant reached) ∧
      post (eval exec script choices initial).1 (eval exec script choices initial).2 := by
  induction script generalizing initial choices with
  | done result => exact ⟨List.forall_mem_nil _, ensured⟩
  | exit status => exact ⟨List.forall_mem_nil _, ensured⟩
  | call issued next ih =>
      obtain ⟨kept, rest⟩ := ensured (choices 0) (admits 0)
      obtain ⟨keptLater, ended⟩ := ih _ rest (fun index => choices (index + 1))
        (fun index => admits (index + 1))
      refine ⟨?_, ended⟩
      intro reached member
      rcases List.mem_cons.mp member with first | later
      · rw [first]
        exact kept
      · exact keptLater reached later

theorem Ensures.mono {script : Script command data value} {weak strong : Exit value → state → Prop}
    {initial : state} (ensured : Ensures exec admitted invariant script strong initial)
    (weaken : ∀ exit final, strong exit final → weak exit final) :
    Ensures exec admitted invariant script weak initial := by
  induction script generalizing initial with
  | done result => exact weaken _ _ ensured
  | exit status => exact weaken _ _ ensured
  | call issued next ih =>
      intro choice admits
      obtain ⟨kept, rest⟩ := ensured choice admits
      exact ⟨kept, ih _ rest⟩

def After (admitted : choice → Prop) (invariant : state → Prop)
    (exec : command → choice → state → Reply data × state)
    (rest : value → Script command data result) (post : Exit result → state → Prop) :
    Exit value → state → Prop
  | .returned value, state => Ensures exec admitted invariant (rest value) post state
  | .exited status, state => post (.exited status) state

theorem Ensures.bind {script : Script command data value}
    {rest : value → Script command data result} {post : Exit result → state → Prop}
    {initial : state}
    (ensured : Ensures exec admitted invariant script
      (After admitted invariant exec rest post) initial) :
    Ensures exec admitted invariant (script.bind rest) post initial := by
  induction script generalizing initial with
  | done result => exact ensured
  | exit status => exact ensured
  | call issued next ih =>
      intro choice admits
      obtain ⟨kept, later⟩ := ensured choice admits
      exact ⟨kept, ih _ later⟩

/-- A loop carries an assertion about the words still to come. -/
theorem Ensures.each {body : item → Script command data Unit}
    {assertion : List item → state → Prop} {post : Exit Unit → state → Prop}
    (step : ∀ word rest before, assertion (word :: rest) before →
      Ensures exec admitted invariant (body word) (fun exit after => match exit with
        | .returned _ => assertion rest after
        | .exited status => post (.exited status) after) before)
    (finish : ∀ after, assertion [] after → post (.returned ()) after)
    (words : List item) {initial : state} (starts : assertion words initial) :
    Ensures exec admitted invariant (Script.each body words) post initial := by
  induction words generalizing initial with
  | nil => exact finish initial starts
  | cons word rest ih =>
      apply Ensures.bind
      apply (step word rest initial starts).mono
      intro exit after reached
      cases exit with
      | returned result => exact ih reached
      | exited status => exact reached

theorem Ensures.child {script : Script command data value}
    {post : Exit Nat → state → Prop} {initial : state}
    (ensured : Ensures exec admitted invariant script
      (fun exit final => post (.returned exit.status) final) initial) :
    Ensures exec admitted invariant script.child post initial := by
  induction script generalizing initial with
  | done result => exact ensured
  | exit status => exact ensured
  | call issued next ih =>
      intro choice admits
      obtain ⟨kept, later⟩ := ensured choice admits
      exact ⟨kept, ih _ later⟩

theorem Ensures.ifOk {issued : command} {yes no : Script command data value}
    {post : Exit value → state → Prop} {initial : state}
    (kept : ∀ choice, admitted choice → invariant (exec issued choice initial).2)
    (succeeds : ∀ choice, admitted choice → (exec issued choice initial).1.ok = true →
      Ensures exec admitted invariant yes post (exec issued choice initial).2)
    (fails : ∀ choice, admitted choice → (exec issued choice initial).1.ok = false →
      Ensures exec admitted invariant no post (exec issued choice initial).2) :
    Ensures exec admitted invariant
      (.call issued fun reply => if reply.ok then yes else no) post initial := by
  intro choice admits
  refine ⟨kept choice admits, ?_⟩
  change Ensures exec admitted invariant
    (if (exec issued choice initial).1.ok then yes else no) post _
  cases succeeded : (exec issued choice initial).1.ok with
  | true => exact succeeds choice admits succeeded
  | false => exact fails choice admits succeeded

def FailsCleanly (exec : command → choice → state → Reply data × state) (issued : command) :
    Prop :=
  ∀ choice before, (exec issued choice before).1.ok = false → (exec issued choice before).2 = before

theorem Ensures.attempt {issued : command} {yes no : Script command data value}
    {post : Exit value → state → Prop} {initial : state} (clean : FailsCleanly exec issued)
    (kept : invariant initial)
    (succeeds : ∀ choice, admitted choice → (exec issued choice initial).1.ok = true →
      invariant (exec issued choice initial).2 ∧
        Ensures exec admitted invariant yes post (exec issued choice initial).2)
    (fails : Ensures exec admitted invariant no post initial) :
    Ensures exec admitted invariant
      (.call issued fun reply => if reply.ok then yes else no) post initial := by
  apply Ensures.ifOk
  · intro choice admits
    cases succeeded : (exec issued choice initial).1.ok with
    | true => exact (succeeds choice admits succeeded).1
    | false =>
        rw [clean choice initial succeeded]
        exact kept
  · exact fun choice admits succeeded => (succeeds choice admits succeeded).2
  · intro choice admits failed
    rw [clean choice initial failed]
    exact fails

theorem Ensures.ofIssues {allowed : command → Prop} (assertion : state → Prop)
    {script : Script command data value} (issues : script.Issues allowed)
    (keeps : ∀ issued choice before, allowed issued → admitted choice → assertion before →
      assertion (exec issued choice before).2)
    (implies : ∀ before, assertion before → invariant before)
    {initial : state} (starts : assertion initial) :
    Ensures exec admitted invariant script
      (fun exit final => exit.FailsOnly ∧ assertion final) initial := by
  induction script generalizing initial with
  | done result => exact ⟨trivial, starts⟩
  | exit status => exact ⟨issues, starts⟩
  | call issued next ih =>
      intro choice admits
      have kept := keeps issued choice initial issues.1 admits starts
      exact ⟨implies _ kept, ih _ (issues.2 _) kept⟩

end Runs

/-! ### Sessions -/

section Sessions

variable {request : Type} (exec : command → choice → state → Reply data × state)
  (program : request → Script command data Unit)

def sessionStates : List (request × (Nat → choice)) → state → List state
  | [], _ => []
  | (asked, choices) :: rest, initial =>
      states exec (program asked) choices initial ++
        sessionStates rest (eval exec (program asked) choices initial).2

def completions : List (request × (Nat → choice)) → state → List (request × Nat × state)
  | [], _ => []
  | (asked, choices) :: rest, initial =>
      (asked, (eval exec (program asked) choices initial).1.status,
          (eval exec (program asked) choices initial).2) ::
        completions rest (eval exec (program asked) choices initial).2

def Meets (condition : request → state → Prop) : List (request × (Nat → choice)) → state → Prop
  | [], _ => True
  | (asked, choices) :: rest, initial =>
      condition asked initial ∧
        Meets condition rest (eval exec (program asked) choices initial).2

variable {exec program}

theorem meets_always (session : List (request × (Nat → choice))) (initial : state) :
    Meets exec program (fun _ _ => True) session initial := by
  induction session generalizing initial with
  | nil => trivial
  | cons first rest ih => exact ⟨trivial, ih _⟩

/-- What holds between requests, at every command and at every completion. -/
theorem session_ensures (condition : request → state → Prop) (between invariant : state → Prop)
    (completed : request → Nat → state → Prop)
    (ensures : ∀ asked before, between before → condition asked before →
      Ensures exec (fun _ => True) invariant (program asked)
        (fun exit after => between after ∧ completed asked exit.status after) before)
    (session : List (request × (Nat → choice))) {initial : state} (starts : between initial)
    (meets : Meets exec program condition session initial) :
    (∀ reached ∈ sessionStates exec program session initial, invariant reached) ∧
      ∀ completion ∈ completions exec program session initial,
        completed completion.1 completion.2.1 completion.2.2 := by
  induction session generalizing initial with
  | nil => exact ⟨List.forall_mem_nil _, List.forall_mem_nil _⟩
  | cons first rest ih =>
      obtain ⟨asked, choices⟩ := first
      obtain ⟨kept, after, finished⟩ :=
        (ensures asked initial starts meets.1).sound choices (fun _ => trivial)
      obtain ⟨keptLater, finishedLater⟩ := ih after meets.2
      constructor
      · intro reached member
        rcases List.mem_append.mp member with early | late
        · exact kept reached early
        · exact keptLater reached late
      · intro completion member
        rcases List.mem_cons.mp member with same | late
        · rw [same]
          exact finished
        · exact finishedLater completion late

end Sessions

end BuildLinux.CommandScript
