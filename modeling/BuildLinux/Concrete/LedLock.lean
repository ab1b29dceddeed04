/-
The exclusive open of driver/lock/lock.c, built with ATOMIC_LOCK_T.

An opener decrements the counter and has the device if it reached zero; one
that comes too late increments it again in a step of its own, so that the
counter may be below zero in between.  The counter is an integer first; the
32-bit word of `atomic_t` follows it as long as there are fewer openers than
words.
-/

import BuildLinux.PhaseCounts
import BuildLinux.TransitionSystem

namespace BuildLinux.Concrete.LedLock

open PhaseCounts TransitionSystem

/-- The operations of `atomic_t` that the driver uses. -/
structure Atomic (counter : Type) where
  set : Int → counter
  decAndTest : counter → counter × Bool
  inc : counter → counter

def exactAtomic : Atomic Int where
  set value := value
  decAndTest value := (value - 1, value - 1 == 0)
  inc value := value + 1

def wordAtomic : Atomic (BitVec 32) where
  set value := BitVec.ofInt 32 value
  decAndTest value := (value - 1, value - 1 == 0)
  inc value := value + 1

inductive Phase where
  | closed
  | backingOut
  | opened
  deriving DecidableEq, Repr

def Phase.isBackingOut (phase : Phase) : Bool := phase == .backingOut

def Phase.isOpened (phase : Phase) : Bool := phase == .opened

structure Device (counter : Type) where
  lock : counter
  openers : List Phase

def Device.holders {counter : Type} (device : Device counter) : Nat :=
  device.openers.countP Phase.isOpened

def Device.backingOut {counter : Type} (device : Device counter) : Nat :=
  device.openers.countP Phase.isBackingOut

inductive Act where
  | ledOpen (opener : Nat)
  | ledOpenFailed (opener : Nat)
  | ledRelease (opener : Nat)
  deriving DecidableEq, Repr

variable {counter : Type}

/-- `led_open` up to its test, its `atomic_inc` after a failed test, and `led_release`. -/
def step (atomic : Atomic counter) (device : Device counter) : Act → Option (Device counter)
  | .ledOpen opener =>
      if device.openers[opener]? = some .closed then
        let result := atomic.decAndTest device.lock
        some
          { lock := result.1
            openers := device.openers.set opener (if result.2 then .opened else .backingOut) }
      else none
  | .ledOpenFailed opener =>
      if device.openers[opener]? = some .backingOut then
        some { lock := atomic.inc device.lock, openers := device.openers.set opener .closed }
      else none
  | .ledRelease opener =>
      if device.openers[opener]? = some .opened then
        some { lock := atomic.inc device.lock, openers := device.openers.set opener .closed }
      else none

/-- `led_intt` sets the counter to one; no one has the device yet. -/
def initialDevice (atomic : Atomic counter) (openers : Nat) : Device counter where
  lock := atomic.set 1
  openers := List.replicate openers .closed

def ledSystem (atomic : Atomic counter) (openers : Nat) : System (Device counter) Act where
  Initial device := device = initialDevice atomic openers
  Step before act after := step atomic before act = some after

/-! ### What a step can be -/

theorem step_inversion {atomic : Atomic counter} {before after : Device counter} {act : Act}
    (stepped : step atomic before act = some after) :
    (∃ opener, act = .ledOpen opener ∧ before.openers[opener]? = some .closed ∧
      after.lock = (atomic.decAndTest before.lock).1 ∧
      after.openers = before.openers.set opener
        (if (atomic.decAndTest before.lock).2 then .opened else .backingOut)) ∨
    ∃ opener phase, (act = .ledOpenFailed opener ∧ phase = .backingOut ∨
        act = .ledRelease opener ∧ phase = .opened) ∧
      before.openers[opener]? = some phase ∧ after.lock = atomic.inc before.lock ∧
      after.openers = before.openers.set opener .closed := by
  unfold step at stepped
  cases act with
  | ledOpen opener =>
      obtain ⟨found, result⟩ := Option.ite_none_right_eq_some.mp stepped
      cases result
      exact Or.inl ⟨opener, rfl, found, rfl, rfl⟩
  | ledOpenFailed opener =>
      obtain ⟨found, result⟩ := Option.ite_none_right_eq_some.mp stepped
      cases result
      exact Or.inr ⟨opener, .backingOut, Or.inl ⟨rfl, rfl⟩, found, rfl, rfl⟩
  | ledRelease opener =>
      obtain ⟨found, result⟩ := Option.ite_none_right_eq_some.mp stepped
      cases result
      exact Or.inr ⟨opener, .opened, Or.inr ⟨rfl, rfl⟩, found, rfl, rfl⟩

/-! ### The counter accounts for the openers -/

/-- One, less everyone who decremented and has not incremented since. -/
structure Accounted (device : Device Int) : Prop where
  counter : device.lock = 1 - device.holders - device.backingOut
  exclusive : device.holders ≤ 1

theorem initial_none (atomic : Atomic counter) (openers : Nat) :
    (initialDevice atomic openers).holders = 0 ∧
      (initialDevice atomic openers).backingOut = 0 := by
  constructor
  · change (List.replicate openers Phase.closed).countP Phase.isOpened = 0
    rw [List.countP_replicate]
    rfl
  · change (List.replicate openers Phase.closed).countP Phase.isBackingOut = 0
    rw [List.countP_replicate]
    rfl

theorem initial_accounted (openers : Nat) : Accounted (initialDevice exactAtomic openers) := by
  obtain ⟨noHolder, noneBackingOut⟩ := initial_none exactAtomic openers
  constructor
  · rw [noHolder, noneBackingOut]
    rfl
  · rw [noHolder]
    exact Nat.zero_le 1

theorem step_accounted {before after : Device Int} {act : Act} (accounted : Accounted before)
    (stepped : step exactAtomic before act = some after) : Accounted after := by
  obtain ⟨counter, exclusive⟩ := accounted
  have holders : after.holders = after.openers.countP Phase.isOpened := rfl
  have backing : after.backingOut = after.openers.countP Phase.isBackingOut := rfl
  change before.lock = 1 - (before.openers.countP Phase.isOpened : Nat) -
    (before.openers.countP Phase.isBackingOut : Nat) at counter
  change before.openers.countP Phase.isOpened ≤ 1 at exclusive
  rcases step_inversion stepped with
    ⟨opener, _, found, lock, moved⟩ | ⟨opener, phase, which, found, lock, moved⟩
  · change after.lock = before.lock - 1 at lock
    by_cases reached : before.lock - 1 = 0
    · -- The counter was one, so no one else has the device.
      have test : (exactAtomic.decAndTest before.lock).2 = true := beq_iff_eq.mpr reached
      rw [test, if_pos rfl] at moved
      rw [moved, countP_enter _ found .opened rfl rfl] at holders
      rw [moved, countP_stay _ found .opened rfl] at backing
      constructor <;> omega
    · have test : (exactAtomic.decAndTest before.lock).2 = false :=
        beq_eq_false_iff_ne.mpr reached
      rw [test, if_neg Bool.false_ne_true] at moved
      rw [moved, countP_stay _ found .backingOut rfl] at holders
      rw [moved, countP_enter _ found .backingOut rfl rfl] at backing
      constructor <;> omega
  · change after.lock = before.lock + 1 at lock
    rcases which with ⟨_, rfl⟩ | ⟨_, rfl⟩
    · have left := countP_leave Phase.isBackingOut found .closed rfl rfl
      rw [moved, countP_stay _ found .closed rfl] at holders
      rw [moved] at backing
      constructor <;> omega
    · have left := countP_leave Phase.isOpened found .closed rfl rfl
      rw [moved] at holders
      rw [moved, countP_stay _ found .closed rfl] at backing
      constructor <;> omega

theorem runs_accounted {openers : Nat} {history : List Act} {device : Device Int}
    (run : Runs (ledSystem exactAtomic openers) history device) : Accounted device := by
  refine run.invariant (fun _ device => Accounted device) ?_ ?_
  · intro initial isInitial
    rw [isInitial]
    exact initial_accounted openers
  · intro history before act after _ accounted stepped
    exact step_accounted accounted stepped

theorem runs_openers {atomic : Atomic counter} {openers : Nat} {history : List Act}
    {device : Device counter} (run : Runs (ledSystem atomic openers) history device) :
    device.openers.length = openers := by
  refine run.invariant (fun _ device => device.openers.length = openers) ?_ ?_
  · intro initial isInitial
    rw [isInitial]
    exact List.length_replicate
  · intro history before act after _ length stepped
    rcases step_inversion stepped with
      ⟨opener, _, _, _, moved⟩ | ⟨opener, phase, _, _, _, moved⟩
    · rw [moved, List.length_set, length]
    · rw [moved, List.length_set, length]

/-- An opener in no phase that is counted is not in the device. -/
theorem phase_closed {device : Device counter} (noHolder : device.holders = 0)
    (noneBackingOut : device.backingOut = 0) {opener : Nat}
    (inRange : opener < device.openers.length) : device.openers[opener]? = some .closed := by
  have member := List.getElem_mem inRange
  rw [List.getElem?_eq_getElem inRange]
  cases phase : device.openers[opener] with
  | closed => rfl
  | backingOut =>
      rw [phase] at member
      exact absurd rfl (List.countP_eq_zero.mp noneBackingOut _ member)
  | opened =>
      rw [phase] at member
      exact absurd rfl (List.countP_eq_zero.mp noHolder _ member)

/-- With no one in the device and its counter at one, anyone can open it. -/
theorem free_opens {atomic : Atomic counter} {device : Device counter}
    (free : device.holders = 0) (quiet : device.backingOut = 0)
    (test : (atomic.decAndTest device.lock).2 = true) {opener : Nat}
    (inRange : opener < device.openers.length) :
    ∃ after, step atomic device (.ledOpen opener) = some after ∧
      after.openers[opener]? = some .opened := by
  refine ⟨_, if_pos (phase_closed free quiet inRange), ?_⟩
  dsimp only
  rw [test]
  exact List.getElem?_set_self inRange

theorem quiet_lock {device : Device Int} (accounted : Accounted device)
    (quiet : device.backingOut = 0) : device.lock = 1 - device.holders := by
  rw [accounted.counter, quiet]
  exact Int.sub_zero _

theorem free_lock {device : Device Int} (accounted : Accounted device)
    (quiet : device.backingOut = 0) (free : device.holders = 0) : device.lock = 1 := by
  rw [quiet_lock accounted quiet, free]
  rfl

/-- At most one opener has the device; a quiet counter is one less the holders,
and a quiet device without holder can be opened by anyone. -/
theorem led_exclusive {openers : Nat} {history : List Act} {device : Device Int}
    (run : Runs (ledSystem exactAtomic openers) history device) :
    device.holders ≤ 1 ∧
      (device.backingOut = 0 → device.lock = 1 - device.holders) ∧
      (device.backingOut = 0 → device.holders = 0 → ∀ opener, opener < openers →
        ∃ after, step exactAtomic device (.ledOpen opener) = some after ∧
          after.openers[opener]? = some .opened) := by
  have accounted := runs_accounted run
  have length := runs_openers run
  refine ⟨accounted.exclusive, quiet_lock accounted, ?_⟩
  intro quiet free opener inRange
  have test : (exactAtomic.decAndTest device.lock).2 = true := by
    rw [free_lock accounted quiet free]
    rfl
  exact free_opens free quiet test (Nat.lt_of_lt_of_eq inRange length.symm)

def backedOut : Device Int where
  lock := 1
  openers := [.closed, .closed]

/-- The second opener fails while the first has the device, and counts back only after the first
has released it; then either of them can open it. -/
theorem led_opened :
    Runs (ledSystem exactAtomic 2) [.ledOpenFailed 1, .ledRelease 0, .ledOpen 1, .ledOpen 0]
        backedOut ∧
      backedOut.lock = 1 - backedOut.holders ∧
      ∀ opener, opener < 2 → ∃ after, step exactAtomic backedOut (.ledOpen opener) = some after ∧
        after.openers[opener]? = some .opened ∧ after.holders ≤ 1 := by
  have contended : Runs (ledSystem exactAtomic 2) [.ledOpen 1, .ledOpen 0]
      ⟨-1, [.opened, .backingOut]⟩ := Runs.next (Runs.next (Runs.start rfl) rfl) rfl
  have released : Runs (ledSystem exactAtomic 2) [.ledRelease 0, .ledOpen 1, .ledOpen 0]
      ⟨0, [.closed, .backingOut]⟩ := Runs.next contended rfl
  have run : Runs (ledSystem exactAtomic 2)
      [.ledOpenFailed 1, .ledRelease 0, .ledOpen 1, .ledOpen 0] backedOut :=
    Runs.next released rfl
  obtain ⟨_, lock, opens⟩ := led_exclusive run
  refine ⟨run, lock rfl, fun opener inRange => ?_⟩
  obtain ⟨after, opened, phase⟩ := opens rfl rfl opener inRange
  exact ⟨after, opened, phase, (led_exclusive (Runs.next run opened)).1⟩

/-! ### The 32-bit counter -/

theorem countP_both (device : Device counter) :
    device.holders + device.backingOut ≤ device.openers.length := by
  unfold Device.holders Device.backingOut
  induction device.openers with
  | nil => exact Nat.le_refl 0
  | cons phase rest ih =>
      rw [List.countP_cons, List.countP_cons, List.length_cons]
      cases phase with
      | closed => exact Nat.le_succ_of_le ih
      | backingOut =>
          change rest.countP Phase.isOpened + 0 + (rest.countP Phase.isBackingOut + 1) ≤ _
          omega
      | opened =>
          change rest.countP Phase.isOpened + 1 + (rest.countP Phase.isBackingOut + 0) ≤ _
          omega

theorem word_pred (value : Int) : BitVec.ofInt 32 value - 1 = BitVec.ofInt 32 (value - 1) := by
  rw [Int.sub_eq_add_neg, BitVec.ofInt_add, BitVec.sub_eq_add_neg]
  rfl

/-- With fewer openers than words, the word is zero only where the counter is. -/
theorem word_test {device : Device Int} (accounted : Accounted device)
    (few : device.openers.length < 4294967296) :
    (wordAtomic.decAndTest (BitVec.ofInt 32 device.lock)).2 =
      (exactAtomic.decAndTest device.lock).2 := by
  have bound := Nat.lt_of_le_of_lt (countP_both device) few
  have counter := accounted.counter
  change (BitVec.ofInt 32 device.lock - 1 == 0) = (device.lock - 1 == 0)
  rw [word_pred, Bool.eq_iff_iff, beq_iff_eq, beq_iff_eq]
  constructor
  · intro zero
    have residue := congrArg BitVec.toInt zero
    rw [BitVec.toInt_ofInt] at residue
    change (device.lock - 1).bmod (4294967296) = 0 at residue
    have multiple := Int.dvd_of_bmod_eq_zero residue
    obtain ⟨quotient, product⟩ := multiple
    omega
  · intro zero
    rw [zero]
    rfl

/-- Every run of the driver's counter is a run of the exact one. -/
theorem word_runs {openers : Nat} (few : openers < 4294967296) {history : List Act}
    {device : Device (BitVec 32)} (run : Runs (ledSystem wordAtomic openers) history device) :
    ∃ exact, Runs (ledSystem exactAtomic openers) history exact ∧
      device.openers = exact.openers ∧ device.lock = BitVec.ofInt 32 exact.lock := by
  induction run with
  | start isInitial =>
      refine ⟨_, Runs.start rfl, ?_, ?_⟩
      · rw [isInitial]
        rfl
      · rw [isInitial]
        rfl
  | @next history before after act earlier stepped ih =>
      obtain ⟨exact, exactRun, sameOpeners, sameLock⟩ := ih
      have length := runs_openers exactRun
      have test := word_test (runs_accounted exactRun) (Nat.lt_of_le_of_lt (Nat.le_of_eq length) few)
      rw [← sameLock] at test
      rcases step_inversion stepped with
        ⟨opener, rfl, found, lock, moved⟩ | ⟨opener, phase, which, found, lock, moved⟩
      · rw [sameOpeners] at found
        refine ⟨_, Runs.next exactRun (if_pos found), ?_, ?_⟩
        · rw [moved, test, sameOpeners]
        · rw [lock, sameLock]
          exact word_pred exact.lock
      · rw [sameOpeners] at found
        have result : step exactAtomic exact act = some
            { lock := exactAtomic.inc exact.lock
              openers := exact.openers.set opener .closed } := by
          rcases which with ⟨rfl, rfl⟩ | ⟨rfl, rfl⟩
          · exact if_pos found
          · exact if_pos found
        refine ⟨_, Runs.next exactRun result, ?_, ?_⟩
        · rw [moved, sameOpeners]
        · rw [lock, sameLock]
          change BitVec.ofInt 32 exact.lock + BitVec.ofInt 32 1 = BitVec.ofInt 32 (exact.lock + 1)
          exact (BitVec.ofInt_add _ _).symm

/-- What the exact counter keeps, the driver's counter keeps. -/
theorem word_exclusive {openers : Nat} (few : openers < 4294967296) {history : List Act}
    {device : Device (BitVec 32)} (run : Runs (ledSystem wordAtomic openers) history device) :
    device.holders ≤ 1 ∧
      (device.backingOut = 0 → device.lock = BitVec.ofInt 32 (1 - device.holders)) ∧
      (device.backingOut = 0 → device.holders = 0 → ∀ opener, opener < openers →
        ∃ after, step wordAtomic device (.ledOpen opener) = some after ∧
          after.openers[opener]? = some .opened) := by
  obtain ⟨exact, exactRun, sameOpeners, sameLock⟩ := word_runs few run
  have accounted := runs_accounted exactRun
  have length := runs_openers run
  have holders : device.holders = exact.holders :=
    congrArg (List.countP Phase.isOpened) sameOpeners
  have backing : device.backingOut = exact.backingOut :=
    congrArg (List.countP Phase.isBackingOut) sameOpeners
  refine ⟨?_, fun quiet => ?_, fun quiet free opener inRange => ?_⟩
  · rw [holders]
    exact accounted.exclusive
  · rw [sameLock, quiet_lock accounted (backing.symm.trans quiet), holders]
  · have test : (wordAtomic.decAndTest device.lock).2 = true := by
      rw [sameLock, free_lock accounted (backing.symm.trans quiet) (holders.symm.trans free)]
      rfl
    exact free_opens free quiet test (Nat.lt_of_lt_of_eq inRange length.symm)

end BuildLinux.Concrete.LedLock
