/-
Callers of an operation whose body runs under one mutex.

A call waits for the mutex, performs the actions of its body one at a time
while other callers take steps of their own, unlocks, and returns.  The ticket
of a call counts the calls that had the mutex before it.  Whatever the order of
the steps, the actions of one ticket stand together, in the order of the
tickets, and a call that has unlocked has performed its whole body.
-/

import BuildLinux.TransitionSystem
import Mathlib.Logic.Function.Basic
import Mathlib.Tactic.Common

namespace BuildLinux.LockedSections

open TransitionSystem

variable {process call answer action device : Type}

/-- `reply` is what the surroundings answered to the call when it had the mutex. -/
inductive Phase (call answer action : Type) where
  | idle
  | waiting (request : call)
  | holding (ticket : Nat) (request : call) (reply : answer) (left : List action)
  | leaving (ticket : Nat) (request : call) (reply : answer)

inductive Act (process call answer action : Type) where
  | issue (caller : process) (request : call)
  | lock (caller : process) (ticket : Nat) (request : call) (reply : answer)
  | perform (caller : process) (ticket : Nat) (performed : action)
  | unlock (caller : process) (ticket : Nat)
  | leave (caller : process) (ticket : Nat) (request : call) (reply : answer)

structure State (process call answer action device : Type) where
  phases : process → Phase call answer action
  locked : Bool
  tickets : Nat
  device : device

section Steps

variable [DecidableEq process] (body : call → answer → List action)
  (effect : action → device → device)

inductive Step : State process call answer action device →
    Act process call answer action → State process call answer action device → Prop where
  | issue {state : State process call answer action device} {caller : process} {request : call}
      (isIdle : state.phases caller = .idle) :
      Step state (.issue caller request)
        { state with phases := Function.update state.phases caller (.waiting request) }
  | lock {state : State process call answer action device} {caller : process} {request : call}
      (isWaiting : state.phases caller = .waiting request) (isFree : state.locked = false)
      (reply : answer) :
      Step state (.lock caller state.tickets request reply)
        { state with
          phases := Function.update state.phases caller
            (.holding state.tickets request reply (body request reply))
          locked := true
          tickets := state.tickets + 1 }
  | perform {state : State process call answer action device} {caller : process} {ticket : Nat}
      {request : call} {reply : answer} {performed : action} {left : List action}
      (isHolding : state.phases caller = .holding ticket request reply (performed :: left)) :
      Step state (.perform caller ticket performed)
        { state with
          phases := Function.update state.phases caller (.holding ticket request reply left)
          device := effect performed state.device }
  | unlock {state : State process call answer action device} {caller : process} {ticket : Nat}
      {request : call} {reply : answer}
      (isDone : state.phases caller = .holding ticket request reply []) :
      Step state (.unlock caller ticket)
        { state with
          phases := Function.update state.phases caller (.leaving ticket request reply)
          locked := false }
  | leave {state : State process call answer action device} {caller : process} {ticket : Nat}
      {request : call} {reply : answer}
      (isLeaving : state.phases caller = .leaving ticket request reply) :
      Step state (.leave caller ticket request reply)
        { state with phases := Function.update state.phases caller .idle }

def lockedCalls (Starts : device → Prop) :
    System (State process call answer action device) (Act process call answer action) where
  Initial state :=
    state.phases = (fun _ => .idle) ∧ state.locked = false ∧ state.tickets = 0 ∧
      Starts state.device
  Step := Step body effect

end Steps

/-! ### What a history holds -/

def locks : List (Act process call answer action) → List (Nat × call × answer)
  | [] => []
  | .lock _ ticket request reply :: earlier => (ticket, request, reply) :: locks earlier
  | .issue _ _ :: earlier => locks earlier
  | .perform _ _ _ :: earlier => locks earlier
  | .unlock _ _ :: earlier => locks earlier
  | .leave _ _ _ _ :: earlier => locks earlier

/-- The actions performed with their tickets, the latest first. -/
def performed : List (Act process call answer action) → List (Nat × action)
  | [] => []
  | .perform _ ticket done :: earlier => (ticket, done) :: performed earlier
  | .issue _ _ :: earlier => performed earlier
  | .lock _ _ _ _ :: earlier => performed earlier
  | .unlock _ _ :: earlier => performed earlier
  | .leave _ _ _ _ :: earlier => performed earlier

/-- The actions of one ticket, in their order. -/
def actionsOf (ticket : Nat) (history : List (Act process call answer action)) : List action :=
  (((performed history).filter fun done => done.1 == ticket).map Prod.snd).reverse

theorem actionsOf_perform (caller : process) (ticket : Nat) (done : action)
    (history : List (Act process call answer action)) :
    actionsOf ticket (.perform caller ticket done :: history) =
      actionsOf ticket history ++ [done] := by
  unfold actionsOf
  rw [performed, List.filter_cons, if_pos (beq_self_eq_true ticket), List.map_cons,
    List.reverse_cons]

theorem actionsOf_perform_of_ne {ticket other : Nat} (different : other ≠ ticket)
    (caller : process) (done : action) (history : List (Act process call answer action)) :
    actionsOf ticket (.perform caller other done :: history) = actionsOf ticket history := by
  have notEqual : ¬(other == ticket) = true := fun equal => different (eq_of_beq equal)
  unfold actionsOf
  rw [performed, List.filter_cons, if_neg notEqual]

theorem mem_actionsOf {ticket : Nat} {done : action}
    {history : List (Act process call answer action)} :
    done ∈ actionsOf ticket history ↔ (ticket, done) ∈ performed history := by
  unfold actionsOf
  rw [List.mem_reverse, List.mem_map]
  constructor
  · rintro ⟨⟨other, found⟩, member, rfl⟩
    obtain ⟨present, same⟩ := List.mem_filter.mp member
    rw [← eq_of_beq same]
    exact present
  · intro present
    exact ⟨(ticket, done), List.mem_filter.mpr ⟨present, beq_self_eq_true ticket⟩, rfl⟩

theorem actionsOf_eq_nil {ticket : Nat} {history : List (Act process call answer action)}
    (unused : ∀ done ∈ performed history, done.1 ≠ ticket) : actionsOf ticket history = [] := by
  unfold actionsOf
  have none : (performed history).filter (fun done => done.1 == ticket) = [] :=
    List.filter_eq_nil_iff.mpr fun done member equal => unused done member (eq_of_beq equal)
  rw [none]
  rfl

/-! ### The invariant -/

/-- The calls are serialised by their tickets. -/
structure Serial (body : call → answer → List action)
    (history : List (Act process call answer action))
    (state : State process call answer action device) : Prop where
  lock_below : ∀ lock ∈ locks history, lock.1 < state.tickets
  sorted : (performed history).Pairwise fun newer older => older.1 ≤ newer.1
  has_lock : ∀ done ∈ performed history, ∃ request reply,
    (done.1, request, reply) ∈ locks history ∧ done.2 ∈ body request reply
  one_holder : ∀ caller ticket request reply left,
    state.phases caller = .holding ticket request reply left →
      ∀ other ticket' request' reply' left',
        state.phases other = .holding ticket' request' reply' left' → other = caller
  holding : ∀ caller ticket request reply left,
    state.phases caller = .holding ticket request reply left →
      state.locked = true ∧ ticket + 1 = state.tickets ∧
        (ticket, request, reply) ∈ locks history ∧
        actionsOf ticket history ++ left = body request reply
  leaving : ∀ caller ticket request reply,
    state.phases caller = .leaving ticket request reply →
      (state.locked = true → ticket + 1 < state.tickets) ∧
        (ticket, request, reply) ∈ locks history ∧ actionsOf ticket history = body request reply

variable {body : call → answer → List action}
  {history : List (Act process call answer action)}
  {state : State process call answer action device}

theorem Serial.performed_below (serial : Serial body history state) :
    ∀ done ∈ performed history, done.1 < state.tickets := by
  intro done member
  obtain ⟨request, reply, locked, _⟩ := serial.has_lock done member
  exact serial.lock_below _ locked

theorem Serial.start (free : ∀ caller, state.phases caller = .idle) : Serial body [] state where
  lock_below := fun _ member => (nomatch member)
  sorted := List.Pairwise.nil
  has_lock := fun _ member => (nomatch member)
  one_holder := fun caller ticket request reply left holds => by
    rw [free caller] at holds
    cases holds
  holding := fun caller ticket request reply left holds => by
    rw [free caller] at holds
    cases holds
  leaving := fun caller ticket request reply leaves => by
    rw [free caller] at leaves
    cases leaves

section Preservation

variable [DecidableEq process]

/-- A caller that neither holds the mutex nor is about to return after the step. -/
theorem Serial.quiet {caller : process} {phase : Phase call answer action}
    (serial : Serial body history state)
    (notHolding : ∀ ticket request reply left, phase ≠ .holding ticket request reply left)
    (notLeaving : ∀ ticket request reply, phase ≠ .leaving ticket request reply)
    {act : Act process call answer action} (sameLocks : locks (act :: history) = locks history)
    (samePerformed : performed (act :: history) = performed history) :
    Serial body (act :: history)
      { state with phases := Function.update state.phases caller phase } := by
  have sameActions : ∀ ticket, actionsOf ticket (act :: history) = actionsOf ticket history := by
    intro ticket
    unfold actionsOf
    rw [samePerformed]
  have others : ∀ {other ticket request reply left},
      Function.update state.phases caller phase other = .holding ticket request reply left →
        state.phases other = .holding ticket request reply left := by
    intro other ticket request reply left holds
    by_cases same : other = caller
    · rw [same, Function.update_self] at holds
      exact absurd holds (notHolding ticket request reply left)
    · rwa [Function.update_of_ne same] at holds
  constructor
  · rw [sameLocks]
    exact serial.lock_below
  · rw [samePerformed]
    exact serial.sorted
  · rw [sameLocks, samePerformed]
    exact serial.has_lock
  · intro holder ticket request reply left holds other ticket' request' reply' left' holds'
    exact serial.one_holder _ _ _ _ _ (others holds) _ _ _ _ _ (others holds')
  · intro holder ticket request reply left holds
    rw [sameLocks, sameActions]
    exact serial.holding _ _ _ _ _ (others holds)
  · intro leaver ticket request reply leaves
    rw [sameLocks, sameActions]
    by_cases same : leaver = caller
    · change Function.update state.phases caller phase leaver = _ at leaves
      rw [same, Function.update_self] at leaves
      exact absurd leaves (notLeaving ticket request reply)
    · change Function.update state.phases caller phase leaver = _ at leaves
      rw [Function.update_of_ne same] at leaves
      exact serial.leaving _ _ _ _ leaves

theorem Serial.lock {caller : process} {request : call}
    (serial : Serial body history state) (isFree : state.locked = false) (reply : answer) :
    Serial body (.lock caller state.tickets request reply :: history)
      { state with
        phases := Function.update state.phases caller
          (.holding state.tickets request reply (body request reply))
        locked := true
        tickets := state.tickets + 1 } := by
  have noHolder : ∀ {other ticket request' reply' left},
      state.phases other ≠ .holding ticket request' reply' left := by
    intro other ticket request' reply' left holds
    have taken := (serial.holding _ _ _ _ _ holds).1
    rw [isFree] at taken
    cases taken
  have onlyCaller : ∀ {other ticket request' reply' left},
      Function.update state.phases caller
          (.holding state.tickets request reply (body request reply)) other =
        .holding ticket request' reply' left →
      other = caller := by
    intro other ticket request' reply' left holds
    by_contra different
    rw [Function.update_of_ne different] at holds
    exact noHolder holds
  have unused : actionsOf state.tickets history = [] :=
    actionsOf_eq_nil fun done member => Nat.ne_of_lt (serial.performed_below done member)
  constructor
  · intro taken member
    rcases List.mem_cons.mp member with rfl | earlier
    · exact Nat.lt_succ_self state.tickets
    · exact Nat.lt_succ_of_lt (serial.lock_below taken earlier)
  · exact serial.sorted
  · intro done member
    obtain ⟨request', reply', locked, inBody⟩ := serial.has_lock done member
    exact ⟨request', reply', List.mem_cons_of_mem _ locked, inBody⟩
  · intro holder ticket request' reply' left holds other ticket'' request'' reply'' left' holds'
    rw [onlyCaller holds, onlyCaller holds']
  · intro holder ticket request' reply' left holds
    change Function.update state.phases caller _ holder = _ at holds
    rw [onlyCaller holds, Function.update_self] at holds
    injection holds with sameTicket sameRequest sameReply sameLeft
    subst sameTicket sameRequest sameReply sameLeft
    refine ⟨rfl, rfl, List.mem_cons_self, ?_⟩
    change actionsOf state.tickets history ++ _ = _
    rw [unused, List.nil_append]
  · intro leaver ticket request' reply' leaves
    change Function.update state.phases caller _ leaver = _ at leaves
    by_cases same : leaver = caller
    · rw [same, Function.update_self] at leaves
      cases leaves
    · rw [Function.update_of_ne same] at leaves
      obtain ⟨_, locked, whole⟩ := serial.leaving _ _ _ _ leaves
      have below := serial.lock_below _ locked
      exact ⟨fun _ => Nat.succ_lt_succ below, List.mem_cons_of_mem _ locked, whole⟩

theorem Serial.perform {caller : process} {ticket : Nat} {request : call} {reply : answer}
    {done : action} {left : List action} (serial : Serial body history state)
    (isHolding : state.phases caller = .holding ticket request reply (done :: left))
    (effect : action → device → device) :
    Serial body (.perform caller ticket done :: history)
      { state with
        phases := Function.update state.phases caller (.holding ticket request reply left)
        device := effect done state.device } := by
  obtain ⟨isLocked, isLast, locked, whole⟩ := serial.holding _ _ _ _ _ isHolding
  have isHolder : ∀ {other ticket' request' reply' left'},
      Function.update state.phases caller (.holding ticket request reply left) other =
        .holding ticket' request' reply' left' →
      other = caller := by
    intro other ticket' request' reply' left' holds
    by_contra different
    rw [Function.update_of_ne different] at holds
    exact different (serial.one_holder _ _ _ _ _ isHolding _ _ _ _ _ holds)
  constructor
  · exact serial.lock_below
  · refine List.Pairwise.cons ?_ serial.sorted
    intro older member
    have below := serial.performed_below older member
    change older.1 ≤ ticket
    omega
  · intro item member
    rcases List.mem_cons.mp member with rfl | earlier
    · refine ⟨request, reply, locked, ?_⟩
      rw [← whole]
      exact List.mem_append_right _ List.mem_cons_self
    · exact serial.has_lock item earlier
  · intro holder _ _ _ _ holds other _ _ _ _ holds'
    rw [isHolder holds, isHolder holds']
  · intro holder ticket' request' reply' left' holds
    change Function.update state.phases caller _ holder = _ at holds
    rw [isHolder holds, Function.update_self] at holds
    injection holds with sameTicket sameRequest sameReply sameLeft
    subst sameTicket sameRequest sameReply sameLeft
    refine ⟨isLocked, isLast, locked, ?_⟩
    rw [actionsOf_perform, List.append_assoc]
    exact whole
  · intro leaver ticket' request' reply' leaves
    change Function.update state.phases caller _ leaver = _ at leaves
    by_cases same : leaver = caller
    · rw [same, Function.update_self] at leaves
      cases leaves
    · rw [Function.update_of_ne same] at leaves
      obtain ⟨apart, locked', whole'⟩ := serial.leaving _ _ _ _ leaves
      have different : ticket ≠ ticket' := by
        have before := apart isLocked
        omega
      refine ⟨apart, locked', ?_⟩
      rw [actionsOf_perform_of_ne different]
      exact whole'

theorem Serial.unlock {caller : process} {ticket : Nat} {request : call} {reply : answer}
    (serial : Serial body history state)
    (isDone : state.phases caller = .holding ticket request reply []) :
    Serial body (.unlock caller ticket :: history)
      { state with
        phases := Function.update state.phases caller (.leaving ticket request reply)
        locked := false } := by
  obtain ⟨_, _, locked, whole⟩ := serial.holding _ _ _ _ _ isDone
  have noHolder : ∀ {other ticket' request' reply' left'},
      Function.update state.phases caller (.leaving ticket request reply) other ≠
        .holding ticket' request' reply' left' := by
    intro other ticket' request' reply' left' holds
    by_cases same : other = caller
    · rw [same, Function.update_self] at holds
      cases holds
    · rw [Function.update_of_ne same] at holds
      exact same (serial.one_holder _ _ _ _ _ isDone _ _ _ _ _ holds)
  constructor
  · exact serial.lock_below
  · exact serial.sorted
  · exact serial.has_lock
  · exact fun _ _ _ _ _ holds => absurd holds noHolder
  · exact fun _ _ _ _ _ holds => absurd holds noHolder
  · intro leaver ticket' request' reply' leaves
    change Function.update state.phases caller _ leaver = _ at leaves
    by_cases same : leaver = caller
    · rw [same, Function.update_self] at leaves
      injection leaves with sameTicket sameRequest sameReply
      subst sameTicket sameRequest sameReply
      rw [List.append_nil] at whole
      exact ⟨fun impossible => (nomatch impossible), locked, whole⟩
    · rw [Function.update_of_ne same] at leaves
      obtain ⟨_, locked', whole'⟩ := serial.leaving _ _ _ _ leaves
      exact ⟨fun impossible => (nomatch impossible), locked', whole'⟩

theorem Serial.step {effect : action → device → device} {act : Act process call answer action}
    {after : State process call answer action device} (serial : Serial body history state)
    (step : Step body effect state act after) : Serial body (act :: history) after := by
  cases step with
  | issue isIdle =>
      refine serial.quiet ?_ ?_ rfl rfl
      · intro _ _ _ _ impossible
        cases impossible
      · intro _ _ _ impossible
        cases impossible
  | lock isWaiting isFree reply => exact serial.lock isFree reply
  | perform isHolding => exact serial.perform isHolding effect
  | unlock isDone => exact serial.unlock isDone
  | leave isLeaving =>
      refine serial.quiet ?_ ?_ rfl rfl
      · intro _ _ _ _ impossible
        cases impossible
      · intro _ _ _ impossible
        cases impossible

end Preservation

/-! ### Runs -/

section OverRuns

variable [DecidableEq process] {effect : action → device → device} {Starts : device → Prop}

theorem runs_serial (run : Runs (lockedCalls body effect Starts) history state) :
    Serial body history state := by
  refine Runs.invariant (Serial body) ?_ ?_ run
  · rintro initial ⟨idle, _, _, _⟩
    exact Serial.start fun caller => by rw [idle]
  · exact fun _ _ _ _ _ serial step => serial.step step

/-- What every action of a body preserves holds of the device in every state. -/
theorem runs_device (holds : device → Prop) (initially : ∀ start, Starts start → holds start)
    (preserved : ∀ request reply, ∀ done ∈ body request reply, ∀ before,
      holds before → holds (effect done before))
    (run : Runs (lockedCalls body effect Starts) history state) : holds state.device := by
  refine Runs.invariant (fun _ state => holds state.device) ?_ ?_ run
  · rintro initial ⟨_, _, _, starts⟩
    exact initially _ starts
  · intro history before act after earlier held step
    cases step with
    | @perform _ _ request reply done left isHolding =>
        obtain ⟨_, _, _, whole⟩ := (runs_serial earlier).holding _ _ _ _ _ isHolding
        refine preserved request reply done ?_ _ held
        rw [← whole]
        exact List.mem_append_right _ List.mem_cons_self
    | issue isIdle => exact held
    | lock isWaiting isFree reply => exact held
    | unlock isDone => exact held
    | leave isLeaving => exact held

/-- Nothing of another ticket stands between two actions of one ticket. -/
theorem runs_contiguous (run : Runs (lockedCalls body effect Starts) history state)
    {newer middle older : List (Nat × action)} {ticket : Nat} {last first : action}
    (shape : performed history = newer ++ (ticket, last) :: (middle ++ (ticket, first) :: older)) :
    ∀ between ∈ middle, between.1 = ticket := by
  have sorted := (runs_serial run).sorted
  rw [shape] at sorted
  have fromLast := (List.pairwise_append.mp sorted).2.1
  obtain ⟨belowLast, rest⟩ := List.pairwise_cons.mp fromLast
  intro between member
  have notAbove : between.1 ≤ ticket := belowLast between (List.mem_append_left _ member)
  have notBelow : ticket ≤ between.1 :=
    (List.pairwise_append.mp rest).2.2 between member (ticket, first) List.mem_cons_self
  exact Nat.le_antisymm notAbove notBelow

/-- A call that returns had the mutex and has performed its whole body. -/
theorem runs_leave {caller : process} {ticket : Nat} {request : call} {reply : answer}
    (run : Runs (lockedCalls body effect Starts) (.leave caller ticket request reply :: history)
      state) :
    (ticket, request, reply) ∈ locks history ∧ actionsOf ticket history = body request reply := by
  cases run with
  | next earlier step =>
      cases step with
      | leave isLeaving => exact ((runs_serial earlier).leaving _ _ _ _ isLeaving).2

/-- Where `sets` tells what an action sets to which value: what was set last when
a call returns is what its own body set last, or what a call with a later ticket set. -/
theorem runs_leave_latest {value : Type} (sets : action → Option value) {caller : process}
    {ticket : Nat} {request : call} {reply : answer} {last : value}
    (run : Runs (lockedCalls body effect Starts) (.leave caller ticket request reply :: history)
      state)
    (ends : (body request reply).reverse.findSome? sets = some last) :
    ∃ latest, (performed history).findSome? (fun done => sets done.2) = some latest ∧
      (latest = last ∨ ∃ later request' reply' done, ticket < later ∧
        (later, request', reply') ∈ locks history ∧ done ∈ body request' reply' ∧
        sets done = some latest) := by
  obtain ⟨_, whole⟩ := runs_leave run
  obtain ⟨before, earlierRun⟩ := @Runs.earlierPart _ _ _ [_] history state run
  have serial := runs_serial earlierRun
  -- the last setting action of this call is among those performed
  obtain ⟨own, ownMember, ownSets⟩ := List.exists_of_findSome?_eq_some ends
  rw [List.mem_reverse, ← whole, mem_actionsOf] at ownMember
  have some_set : (performed history).findSome? (fun done => sets done.2) ≠ none := by
    intro none
    have unset := List.findSome?_eq_none_iff.mp none _ ownMember
    rw [ownSets] at unset
    cases unset
  obtain ⟨latest, found⟩ := Option.ne_none_iff_exists'.mp some_set
  refine ⟨latest, found, ?_⟩
  obtain ⟨newer, ⟨other, done⟩, older, shape, doneSets, newerUnset⟩ :=
    List.findSome?_eq_some_iff.mp found
  have present : (other, done) ∈ performed history := by
    rw [shape]
    exact List.mem_append_right _ List.mem_cons_self
  rcases Nat.lt_trichotomy other ticket with before | same | after
  · -- the action of this call would be older than one of an earlier ticket
    rw [shape] at ownMember
    rcases List.mem_append.mp ownMember with inNewer | inRest
    · have unset := newerUnset _ inNewer
      rw [ownSets] at unset
      cases unset
    · have sorted := serial.sorted
      rw [shape] at sorted
      have below := (List.pairwise_cons.mp (List.pairwise_append.mp sorted).2.1).1
      rcases List.mem_cons.mp inRest with equal | inOlder
      · injection equal with sameTicket
        omega
      · have notAbove : ticket ≤ other := below _ inOlder
        omega
  · subst same
    refine Or.inl ?_
    have reversed : (body request reply).reverse =
        ((performed history).filter fun done => done.1 == other).map Prod.snd := by
      rw [← whole, actionsOf, List.reverse_reverse]
    have newerOwnUnset :
        ((newer.filter fun done => done.1 == other).map Prod.snd).findSome? sets = none := by
      refine List.findSome?_eq_none_iff.mpr fun item member => ?_
      obtain ⟨pair, inFilter, rfl⟩ := List.mem_map.mp member
      exact newerUnset pair (List.mem_filter.mp inFilter).1
    rw [reversed, shape, List.filter_append, List.map_append, List.findSome?_append,
      newerOwnUnset, Option.none_or, List.filter_cons, if_pos (beq_self_eq_true other),
      List.map_cons, List.findSome?_cons, doneSets] at ends
    exact Option.some.inj ends
  · obtain ⟨request', reply', locked, inBody⟩ := serial.has_lock _ present
    exact Or.inr ⟨other, request', reply', done, after, locked, inBody, doneSets⟩

end OverRuns

end BuildLinux.LockedSections
