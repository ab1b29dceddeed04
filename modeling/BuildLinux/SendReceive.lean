/-
Coders that take items and give them back later.

A coder holds the items it accepted and has not returned.  It may keep any
number of them back, returns the least one first, and after a flush keeps none
back.  Receiving until the coder has nothing more to give therefore returns a
first part of what it holds, and after a flush all of it.
-/

import Mathlib.Data.List.Basic

namespace BuildLinux.SendReceive

variable {state item file : Type} [LT item]

structure Coder (state item : Type) [LT item] where
  opened : state
  send : state → item → state × Bool
  flush : state → state
  receive : state → state × Option item
  held : state → List item
  flushed : state → Prop
  opened_held : held opened = []
  send_accepted : ∀ before sent, (send before sent).2 = true →
    held (send before sent).1 = held before ++ [sent]
  send_rejected : ∀ before sent, (send before sent).2 = false →
    held (send before sent).1 = held before
  flush_held : ∀ before, held (flush before) = held before
  flush_flushed : ∀ before, flushed (flush before)
  receive_none : ∀ before, (receive before).2 = none → held (receive before).1 = held before
  receive_some : ∀ before least, (receive before).2 = some least →
    (∀ other ∈ held before, ¬other < least) ∧ ∃ front back,
      held before = front ++ least :: back ∧ held (receive before).1 = front ++ back
  receive_flushed : ∀ before, flushed before → flushed (receive before).1
  flushed_none : ∀ before, flushed before → (receive before).2 = none → held before = []

variable (coder : Coder state item) (handle : file → item → file)

theorem receive_shorter {before after : state} {least : item}
    (received : coder.receive before = (after, some least)) :
    (coder.held after).length < (coder.held before).length := by
  have result : (coder.receive before).2 = some least := congrArg Prod.snd received
  obtain ⟨_, front, back, holds, rest⟩ := coder.receive_some before least result
  rw [received] at rest
  change coder.held after = front ++ back at rest
  rw [holds, rest, List.length_append, List.length_append, List.length_cons]
  exact Nat.lt_succ_self _

/-- `while (receive(..) == 0) handle(..)`. -/
def drainInto (before : state) (sink : file) : state × file :=
  match _received : coder.receive before with
  | (after, none) => (after, sink)
  | (after, some least) => drainInto after (handle sink least)
termination_by (coder.held before).length
decreasing_by exact receive_shorter coder _received

theorem drainInto_none {before after : state} (received : coder.receive before = (after, none))
    (sink : file) : drainInto coder handle before sink = (after, sink) := by
  rw [drainInto]
  split
  · next stopped =>
      cases received.symm.trans stopped
      rfl
  · next more => exact absurd (received.symm.trans more) nofun

theorem drainInto_some {before after : state} {least : item}
    (received : coder.receive before = (after, some least)) (sink : file) :
    drainInto coder handle before sink = drainInto coder handle after (handle sink least) := by
  rw [drainInto]
  split
  · next stopped => exact absurd (received.symm.trans stopped) nofun
  · next more =>
      cases received.symm.trans more
      rfl

/-- From items in order, the least one is the first. -/
theorem receive_first {before after : state} {least : item}
    (ordered : (coder.held before).Pairwise (· < ·))
    (received : coder.receive before = (after, some least)) :
    coder.held before = least :: coder.held after := by
  have result : (coder.receive before).2 = some least := congrArg Prod.snd received
  obtain ⟨isLeast, front, back, holds, rest⟩ := coder.receive_some before least result
  rw [received] at rest
  change coder.held after = front ++ back at rest
  rw [holds] at ordered isLeast ⊢
  cases front with
  | nil => exact congrArg (List.cons least) rest.symm
  | cons first others =>
      have above := (List.pairwise_cons.mp ordered).1 least
        (List.mem_append_right _ List.mem_cons_self)
      exact absurd above (isLeast first List.mem_cons_self)

/-- Draining handles a first part of what is held and keeps the other part. -/
theorem drainInto_spec (before : state) (sink : file)
    (ordered : (coder.held before).Pairwise (· < ·)) :
    ∃ items, coder.held before = items ++ coder.held (drainInto coder handle before sink).1 ∧
      (drainInto coder handle before sink).2 = items.foldl handle sink ∧
      (coder.flushed before → coder.held (drainInto coder handle before sink).1 = []) := by
  cases received : coder.receive before with
  | mk after result =>
      cases result with
      | none =>
          have stopped : (coder.receive before).2 = none := congrArg Prod.snd received
          have kept := coder.receive_none before stopped
          rw [received] at kept
          change coder.held after = coder.held before at kept
          rw [drainInto_none coder handle received]
          refine ⟨[], kept.symm, rfl, fun isFlushed => ?_⟩
          exact kept.trans (coder.flushed_none before isFlushed stopped)
      | some least =>
          have first := receive_first coder ordered received
          rw [first] at ordered
          obtain ⟨items, split, handled, emptied⟩ :=
            drainInto_spec after (handle sink least) (List.pairwise_cons.mp ordered).2
          rw [drainInto_some coder handle received]
          refine ⟨least :: items, ?_, handled, fun isFlushed => emptied ?_⟩
          · rw [first, List.cons_append, ← split]
          · have stays := coder.receive_flushed before isFlushed
            rw [received] at stays
            exact stays
termination_by (coder.held before).length
decreasing_by exact receive_shorter coder received

/-- After a flush every item that is still held comes back. -/
theorem drainInto_flush (before : state) (sink : file)
    (ordered : (coder.held before).Pairwise (· < ·)) :
    (drainInto coder handle (coder.flush before) sink).2 =
      (coder.held before).foldl handle sink := by
  rw [← coder.flush_held before] at ordered
  obtain ⟨items, split, handled, emptied⟩ := drainInto_spec coder handle _ sink ordered
  rw [emptied (coder.flush_flushed before), List.append_nil, coder.flush_held] at split
  rw [handled, split]

end BuildLinux.SendReceive
