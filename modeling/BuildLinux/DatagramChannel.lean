/-
An unreliable one-way channel over an arbitrary type of messages.

Messages in flight form a multiset.  The network may lose, delay, reorder and
duplicate them, but it never forges or alters one.  A history lists the actions
of a run, latest first.  The two facts a protocol needs are that everything
delivered was sent before, and that without duplication the messages delivered
and still in flight are at most the messages sent.
-/

import BuildLinux.TransitionSystem
import Mathlib.Data.Multiset.Basic
import Mathlib.Data.Multiset.Filter

namespace BuildLinux.DatagramChannel

open TransitionSystem (System Runs)

inductive Action (message : Type) where
  | send (sent : message)
  | deliver (delivered : message)
  | lose (lost : message)
  | duplicate (copied : message)

variable {message : Type}

def Action.sent? : Action message → Option message
  | .send item => some item
  | _ => none

def Action.delivered? : Action message → Option message
  | .deliver item => some item
  | _ => none

def Action.isDuplicate : Action message → Bool
  | .duplicate _ => true
  | _ => false

def sent (history : List (Action message)) : List message :=
  history.filterMap Action.sent?

def delivered (history : List (Action message)) : List message :=
  history.filterMap Action.delivered?

inductive Step : Multiset message → Action message → Multiset message → Prop where
  | send (item : message) (flight : Multiset message) :
      Step flight (.send item) (item ::ₘ flight)
  | deliver (item : message) (flight : Multiset message) :
      Step (item ::ₘ flight) (.deliver item) flight
  | lose (item : message) (flight : Multiset message) :
      Step (item ::ₘ flight) (.lose item) flight
  | duplicate (item : message) (flight : Multiset message) (present : item ∈ flight) :
      Step flight (.duplicate item) (item ::ₘ flight)

def channel (message : Type) : System (Multiset message) (Action message) :=
  { Initial := fun flight => flight = 0
    Step := Step }

theorem inFlight_sent {history : List (Action message)} {flight : Multiset message}
    (run : Runs (channel message) history flight) : ∀ item ∈ flight, item ∈ sent history := by
  refine run.invariant (fun history flight => ∀ item ∈ flight, item ∈ sent history) ?_ ?_
  · intro flight starts item present
    change flight = 0 at starts
    rw [starts] at present
    exact False.elim (Multiset.notMem_zero item present)
  · intro history before act after _earlier known step item present
    cases step with
    | send new =>
        rcases Multiset.mem_cons.mp present with same | older
        · subst item
          exact List.mem_cons_self
        · exact List.mem_cons_of_mem new (known item older)
    | deliver => exact known item (Multiset.mem_cons_of_mem present)
    | lose => exact known item (Multiset.mem_cons_of_mem present)
    | duplicate copied _ copiedPresent =>
        rcases Multiset.mem_cons.mp present with same | older
        · subst item
          exact known copied copiedPresent
        · exact known item older

/-- Everything delivered was in flight, hence sent. -/
theorem delivered_sent {history : List (Action message)} {flight : Multiset message}
    (run : Runs (channel message) history flight) :
    ∀ item ∈ delivered history, item ∈ sent history := by
  refine run.invariant (fun history _flight => ∀ item ∈ delivered history, item ∈ sent history)
    ?_ ?_
  · intro flight _starts item member
    cases member
  · intro history before act after earlier known step item member
    cases step with
    | send new => exact List.mem_cons_of_mem new (known item member)
    | deliver gone =>
        rcases List.mem_cons.mp member with same | older
        · subst item
          exact inFlight_sent earlier gone (Multiset.mem_cons_self gone after)
        · exact known item older
    | lose => exact known item member
    | duplicate => exact known item member

theorem conserved {history : List (Action message)} {flight : Multiset message}
    (run : Runs (channel message) history flight)
    (single : ∀ act ∈ history, act.isDuplicate = false) :
    (delivered history : Multiset message) + flight ≤ (sent history : Multiset message) := by
  revert single
  refine run.invariant
    (fun history flight => (∀ act ∈ history, act.isDuplicate = false) →
      (delivered history : Multiset message) + flight ≤ (sent history : Multiset message)) ?_ ?_
  · intro flight starts _single
    change flight = 0 at starts
    rw [starts]
    exact le_refl _
  · intro history before act after _earlier balanced step single
    have earlier := balanced (fun act member => single act (List.mem_cons_of_mem _ member))
    cases step with
    | send new =>
        change (delivered history : Multiset message) + (new ::ₘ before) ≤
          new ::ₘ (sent history : Multiset message)
        rw [Multiset.add_cons]
        exact Multiset.cons_le_cons new earlier
    | deliver item =>
        change item ::ₘ (delivered history : Multiset message) + after ≤ sent history
        rw [Multiset.cons_add, ← Multiset.add_cons]
        exact earlier
    | lose item =>
        change (delivered history : Multiset message) + after ≤ sent history
        exact le_trans (Multiset.add_le_add_left (Multiset.le_cons_self after item)) earlier
    | duplicate item _ present =>
        have impossible := single (.duplicate item) List.mem_cons_self
        cases impossible

/-- Without duplication no kind of message is delivered more often than sent. -/
theorem countP_delivered_le {history : List (Action message)} {flight : Multiset message}
    (run : Runs (channel message) history flight)
    (single : ∀ act ∈ history, act.isDuplicate = false) (kind : message → Bool) :
    (delivered history).countP kind ≤ (sent history).countP kind := by
  have included : (delivered history : Multiset message) ≤ (sent history : Multiset message) :=
    le_trans (Multiset.le_add_right _ _) (conserved run single)
  simpa only [Multiset.coe_countP, Bool.decide_eq_true] using
    Multiset.countP_le_of_le (fun item => kind item = true) included

end BuildLinux.DatagramChannel
