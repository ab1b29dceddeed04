/-
The key of driver/atk_irq/imx6_irq.c with its debounce timer.

An edge restarts the timer; when it expires, `timer_function` samples the pin.
A read loads the key value, loads the release flag and clears the flag in three
steps of its own, so that samples and other reads may come between them.
-/

import BuildLinux.PhaseCounts
import BuildLinux.TransitionSystem

namespace BuildLinux.Concrete.DebouncedKey

open PhaseCounts TransitionSystem

def KEY0VALUE : BitVec 8 := 0x01

def INVAKEY : BitVec 8 := 0xFF

def EINVAL : Int := 22

/-- A call of `imx6uirq_read`: what it has loaded, and what it has copied out
when only the clear is left. -/
inductive Phase where
  | idle
  | loaded (keyvalue : BitVec 8)
  | found (copied : BitVec 8)
  deriving DecidableEq, Repr

structure Device where
  keyvalue : BitVec 8
  releasekey : BitVec 8
  timer : Bool
  readers : List Phase
  deriving DecidableEq, Repr

/-- The key value says released. -/
def isReleased (keyvalue : BitVec 8) : Bool := keyvalue &&& 0x80 != 0

def readSucceeds (keyvalue releasekey : BitVec 8) : Bool :=
  releasekey != 0 && isReleased keyvalue

/-- `gpio` is the sampled value. -/
def timerFunction (gpio : Bool) (dev : Device) : Device :=
  if gpio then { dev with keyvalue := 0x80 ||| KEY0VALUE, releasekey := 1 }
  else { dev with keyvalue := KEY0VALUE }

inductive Act where
  | edge
  | sample (gpio : Bool)
  | loadKey (reader : Nat)
  | loadFlag (reader : Nat) (succeeds : Bool)
  | clear (reader : Nat)
  deriving DecidableEq, Repr

def step (dev : Device) : Act → Option Device
  | .edge => some { dev with timer := true }
  | .sample gpio => if dev.timer then some (timerFunction gpio { dev with timer := false }) else none
  | .loadKey reader =>
      match dev.readers[reader]? with
      | some .idle => some { dev with readers := dev.readers.set reader (.loaded dev.keyvalue) }
      | _ => none
  | .loadFlag reader succeeds =>
      match dev.readers[reader]? with
      | some (.loaded keyvalue) =>
          if succeeds = readSucceeds keyvalue dev.releasekey then
            some
              { dev with
                readers := dev.readers.set reader
                  (if succeeds then .found (keyvalue &&& ~~~0x80) else .idle) }
          else none
      | _ => none
  | .clear reader =>
      match dev.readers[reader]? with
      | some (.found _) =>
          some { dev with releasekey := 0, readers := dev.readers.set reader .idle }
      | _ => none

def initialDevice (readers : Nat) : Device where
  keyvalue := INVAKEY
  releasekey := 0
  timer := false
  readers := List.replicate readers .idle

def keySystem (readers : Nat) : System Device Act where
  Initial dev := dev = initialDevice readers
  Step before act after := step before act = some after

/-- A whole `imx6uirq_read` with nothing in between, and what it returns. -/
def readAlone (dev : Device) (reader : Nat) : Option (Int × Device) :=
  match step dev (.loadKey reader) with
  | none => none
  | some loaded =>
      match step loaded (.loadFlag reader true) with
      | some found =>
          match step found (.clear reader) with
          | some cleared => some (0, cleared)
          | none => none
      | none =>
          match step loaded (.loadFlag reader false) with
          | some failed => some (-EINVAL, failed)
          | none => none

/-! ### What a history holds -/

def lastSample : List Act → Option Bool
  | [] => none
  | .sample gpio :: _ => some gpio
  | _ :: earlier => lastSample earlier

/-- A sample of 1 completes a press if the sample before it was a 0. -/
def completes (earlier : List Act) : Bool := lastSample earlier == some false

def presses : List Act → Nat
  | [] => 0
  | .sample true :: earlier => presses earlier + if completes earlier then 1 else 0
  | _ :: earlier => presses earlier

/-- A read is successful with its clear. -/
def successes : List Act → Nat
  | [] => 0
  | .clear _ :: earlier => successes earlier + 1
  | _ :: earlier => successes earlier

/-- A press completed and no read has succeeded since. -/
def unread : List Act → Bool
  | [] => false
  | .sample true :: earlier => completes earlier || unread earlier
  | .clear _ :: _ => false
  | _ :: earlier => unread earlier

/-- A press completed and no read has found the flag set since. -/
def fresh : List Act → Bool
  | [] => false
  | .sample true :: earlier => completes earlier || fresh earlier
  | .loadFlag _ true :: _ => false
  | _ :: earlier => fresh earlier

def Phase.isFound : Phase → Bool
  | .found _ => true
  | _ => false

/-- A read in progress that holds a released key value. -/
def Phase.holdsReleased : Phase → Bool
  | .idle => false
  | .loaded keyvalue => isReleased keyvalue
  | .found _ => true

def Device.pending (dev : Device) : Nat := dev.readers.countP Phase.isFound

def Device.HoldsReleased (dev : Device) : Prop :=
  ∃ (reader : Nat) (phase : Phase),
    dev.readers[reader]? = some phase ∧ phase.holdsReleased = true

/-- The steps that avoid the defects: a sample of 1 without a press that would
set the flag, a 0 that hides the value of an unread press, and a second read
that finds the flag which another one is about to clear. -/
def Allowed (history : List Act) (before : Device) : Act → Prop
  | .sample true => completes history = true ∨ before.releasekey ≠ 0
  | .sample false => before.releasekey = 0 ∨ before.HoldsReleased
  | .loadFlag _ true => before.pending = 0 ∨ fresh history = true
  | _ => True

/-! ### What a step can be -/

theorem step_cases {before after : Device} {act : Act} (stepped : step before act = some after) :
    (act = .edge ∧ after = { before with timer := true }) ∨
    (∃ gpio, act = .sample gpio ∧ before.timer = true ∧
      after = timerFunction gpio { before with timer := false }) ∨
    (∃ reader, act = .loadKey reader ∧ before.readers[reader]? = some .idle ∧
      after = { before with readers := before.readers.set reader (.loaded before.keyvalue) }) ∨
    (∃ reader keyvalue succeeds, act = .loadFlag reader succeeds ∧
      before.readers[reader]? = some (.loaded keyvalue) ∧
      succeeds = readSucceeds keyvalue before.releasekey ∧
      after =
        { before with
          readers := before.readers.set reader
            (if succeeds then .found (keyvalue &&& ~~~0x80) else .idle) }) ∨
    ∃ reader copied, act = .clear reader ∧ before.readers[reader]? = some (.found copied) ∧
      after = { before with releasekey := 0, readers := before.readers.set reader .idle } := by
  cases act with
  | edge => exact Or.inl ⟨rfl, (Option.some.inj stepped).symm⟩
  | sample gpio =>
      obtain ⟨armed, result⟩ := Option.ite_none_right_eq_some.mp stepped
      exact Or.inr (Or.inl ⟨gpio, rfl, armed, (Option.some.inj result).symm⟩)
  | loadKey reader =>
      dsimp only [step] at stepped
      split at stepped
      · next found =>
          exact Or.inr (Or.inr (Or.inl ⟨reader, rfl, found, (Option.some.inj stepped).symm⟩))
      · cases stepped
  | loadFlag reader succeeds =>
      dsimp only [step] at stepped
      split at stepped
      · next keyvalue found =>
          obtain ⟨outcome, result⟩ := Option.ite_none_right_eq_some.mp stepped
          exact Or.inr (Or.inr (Or.inr (Or.inl
            ⟨reader, keyvalue, succeeds, rfl, found, outcome, (Option.some.inj result).symm⟩)))
      · cases stepped
  | clear reader =>
      dsimp only [step] at stepped
      split at stepped
      · next copied found =>
          exact Or.inr (Or.inr (Or.inr (Or.inr
            ⟨reader, copied, rfl, found, (Option.some.inj stepped).symm⟩)))
      · cases stepped

/-- A reader that changes its phase leaves the others as they hold. -/
theorem holdsReleased_set {before after : Device} {reader : Nat} {source target : Phase}
    (found : before.readers[reader]? = some source) (notHolder : source.holdsReleased = false)
    (moved : after.readers = before.readers.set reader target)
    (holds : before.HoldsReleased) : after.HoldsReleased := by
  obtain ⟨holder, phase, isPhase, released⟩ := holds
  have others : reader ≠ holder := by
    intro same
    rw [← same, found] at isPhase
    cases isPhase
    rw [notHolder] at released
    cases released
  refine ⟨holder, phase, ?_, released⟩
  rw [moved, List.getElem?_set_ne others]
  exact isPhase

/-! ### The invariant -/

/-- Every read that succeeded or is about to has a press of its own, and one
press is left over while the flag is set for it; a set flag comes with a
released key value, in the device or in a read. -/
structure Accounted (history : List Act) (dev : Device) : Prop where
  reads : successes history + dev.pending ≤ presses history
  spare : dev.releasekey ≠ 0 → fresh history = true ∨ dev.pending = 0 →
    successes history + dev.pending < presses history
  flag : unread history = true → dev.releasekey ≠ 0
  value : dev.releasekey ≠ 0 → isReleased dev.keyvalue = true ∨ dev.HoldsReleased

theorem initial_accounted (readers : Nat) : Accounted [] (initialDevice readers) := by
  have nonePending : (initialDevice readers).pending = 0 := by
    change (List.replicate readers Phase.idle).countP Phase.isFound = 0
    rw [List.countP_replicate]
    rfl
  have clear : ¬(initialDevice readers).releasekey ≠ 0 := not_not_intro rfl
  refine ⟨?_, fun set => absurd set clear, nofun, fun set => absurd set clear⟩
  rw [nonePending]
  exact Nat.le_refl 0

theorem sample_accounted {history : List Act} {before : Device} {gpio : Bool}
    (accounted : Accounted history before) (meets : Allowed history before (.sample gpio)) :
    Accounted (.sample gpio :: history) (timerFunction gpio { before with timer := false }) := by
  obtain ⟨reads, spare, flag, value⟩ := accounted
  cases gpio with
  | false =>
      refine ⟨reads, spare, flag, fun set => Or.inr ?_⟩
      exact meets.resolve_left set
  | true =>
      change completes history = true ∨ before.releasekey ≠ 0 at meets
      have set : (1 : BitVec 8) ≠ 0 := by decide
      have released : isReleased (0x80 ||| KEY0VALUE) = true := by decide
      refine ⟨?_, fun _ counted => ?_, fun _ => set, fun _ => Or.inl released⟩
      · exact Nat.le_trans reads (Nat.le_add_right _ _)
      · change successes history + before.pending <
          presses history + if completes history then 1 else 0
        by_cases press : completes history = true
        · rw [if_pos press]
          exact Nat.lt_succ_of_le reads
        · rw [if_neg press]
          refine spare (meets.resolve_left press) ?_
          rcases counted with isFresh | nonePending
          · change (completes history || fresh history) = true at isFresh
            rw [Bool.eq_false_iff.mpr press, Bool.false_or] at isFresh
            exact Or.inl isFresh
          · exact Or.inr nonePending

/-- A reader that moves between phases without finding the flag set. -/
theorem reader_accounted {history : List Act} {act : Act} {before after : Device} {reader : Nat}
    {source target : Phase} (accounted : Accounted history before)
    (quiet : act = .loadKey reader ∨ act = .loadFlag reader false)
    (found : before.readers[reader]? = some source)
    (notHolder : before.releasekey ≠ 0 → source.holdsReleased = false)
    (isAfter : after = { before with readers := before.readers.set reader target })
    (uncounted : source.isFound = target.isFound) : Accounted (act :: history) after := by
  obtain ⟨reads, spare, flag, value⟩ := accounted
  have pending : after.pending = before.pending := by
    rw [isAfter]
    exact countP_stay Phase.isFound found target uncounted
  have sameFlag : after.releasekey = before.releasekey := by rw [isAfter]
  have sameKey : after.keyvalue = before.keyvalue := by rw [isAfter]
  have sameCounts : successes (act :: history) = successes history ∧
      presses (act :: history) = presses history ∧ unread (act :: history) = unread history ∧
      fresh (act :: history) = fresh history := by
    rcases quiet with rfl | rfl
    · exact ⟨rfl, rfl, rfl, rfl⟩
    · exact ⟨rfl, rfl, rfl, rfl⟩
  obtain ⟨sameSuccesses, samePresses, sameUnread, sameFresh⟩ := sameCounts
  refine ⟨?_, ?_, ?_, ?_⟩
  · rw [sameSuccesses, samePresses, pending]
    exact reads
  · rw [sameSuccesses, samePresses, sameFresh, pending, sameFlag]
    exact spare
  · rw [sameUnread, sameFlag]
    exact flag
  · rw [sameFlag, sameKey]
    intro set
    exact (value set).imp_right
      (holdsReleased_set found (notHolder set) (congrArg Device.readers isAfter))

theorem findFlag_accounted {history : List Act} {before after : Device} {reader : Nat}
    {keyvalue : BitVec 8} (accounted : Accounted history before)
    (meets : before.pending = 0 ∨ fresh history = true)
    (found : before.readers[reader]? = some (.loaded keyvalue))
    (succeeds : readSucceeds keyvalue before.releasekey = true)
    (isAfter : after =
      { before with readers := before.readers.set reader (.found (keyvalue &&& ~~~0x80)) }) :
    Accounted (.loadFlag reader true :: history) after := by
  obtain ⟨reads, spare, flag, value⟩ := accounted
  have set : before.releasekey ≠ 0 := bne_iff_ne.mp (Bool.and_eq_true_iff.mp succeeds).1
  have sameFlag : after.releasekey = before.releasekey := by rw [isAfter]
  have pending : after.pending = before.pending + 1 := by
    rw [isAfter]
    exact countP_enter Phase.isFound found (.found (keyvalue &&& ~~~0x80)) rfl rfl
  -- The press that the flag stood for now belongs to this read.
  have left := spare set meets.symm
  refine ⟨?_, fun _ counted => ?_, ?_, fun _ => Or.inr ?_⟩
  · change successes history + after.pending ≤ presses history
    omega
  · rcases counted with isFresh | nonePending
    · cases isFresh
    · omega
  · rw [sameFlag]
    exact flag
  · refine ⟨reader, .found (keyvalue &&& ~~~0x80), ?_, rfl⟩
    rw [isAfter]
    exact List.getElem?_set_self (List.getElem?_eq_some_iff.mp found).1

theorem loadFlag_accounted {history : List Act} {before after : Device} {reader : Nat}
    {keyvalue : BitVec 8} {succeeds : Bool} (accounted : Accounted history before)
    (meets : Allowed history before (.loadFlag reader succeeds))
    (found : before.readers[reader]? = some (.loaded keyvalue))
    (outcome : succeeds = readSucceeds keyvalue before.releasekey)
    (isAfter : after =
      { before with
        readers := before.readers.set reader
          (if succeeds then .found (keyvalue &&& ~~~0x80) else .idle) }) :
    Accounted (.loadFlag reader succeeds :: history) after := by
  cases succeeds with
  | true => exact findFlag_accounted accounted meets found outcome.symm isAfter
  | false =>
      refine reader_accounted accounted (Or.inr rfl) found (fun set => ?_) isAfter rfl
      have flagSet : (before.releasekey != 0) = true := bne_iff_ne.mpr set
      unfold readSucceeds at outcome
      rw [flagSet, Bool.true_and] at outcome
      exact outcome.symm

theorem clear_accounted {history : List Act} {before after : Device} {reader : Nat}
    {copied : BitVec 8} (accounted : Accounted history before)
    (found : before.readers[reader]? = some (.found copied))
    (isAfter : after = { before with
      releasekey := 0
      readers := before.readers.set reader .idle }) :
    Accounted (.clear reader :: history) after := by
  have pending : after.pending + 1 = before.pending := by
    rw [isAfter]
    exact countP_leave Phase.isFound found .idle rfl rfl
  have clear : ¬after.releasekey ≠ 0 := by
    rw [isAfter]
    exact not_not_intro rfl
  refine ⟨?_, fun set => absurd set clear, nofun, fun set => absurd set clear⟩
  have reads := accounted.reads
  change successes history + 1 + after.pending ≤ presses history
  omega

theorem step_accounted {history : List Act} {before after : Device} {act : Act}
    (accounted : Accounted history before) (meets : Allowed history before act)
    (stepped : step before act = some after) : Accounted (act :: history) after := by
  rcases step_cases stepped with ⟨rfl, rfl⟩ | ⟨gpio, rfl, _, rfl⟩ | ⟨reader, rfl, found, isAfter⟩ |
    ⟨reader, keyvalue, succeeds, rfl, found, outcome, isAfter⟩ |
    ⟨reader, copied, rfl, found, isAfter⟩
  · exact ⟨accounted.reads, accounted.spare, accounted.flag, accounted.value⟩
  · exact sample_accounted accounted meets
  · exact reader_accounted accounted (Or.inl rfl) found (fun _ => rfl) isAfter rfl
  · exact loadFlag_accounted accounted meets found outcome isAfter
  · exact clear_accounted accounted found isAfter

theorem runs_accounted {readers : Nat} {history : List Act} {dev : Device}
    (run : RunsWhere (keySystem readers) Allowed history dev) : Accounted history dev := by
  refine run.invariant Accounted ?_ ?_
  · intro initial isInitial
    rw [isInitial]
    exact initial_accounted readers
  · intro history before act after accounted meets stepped
    exact step_accounted accounted meets stepped

/-! ### The semantics of the key -/

theorem readAlone_succeeds {dev : Device} {reader : Nat}
    (idle : dev.readers[reader]? = some .idle)
    (succeeds : readSucceeds dev.keyvalue dev.releasekey = true) :
    ∃ after, readAlone dev reader = some (0, after) := by
  have inRange := (List.getElem?_eq_some_iff.mp idle).1
  have loaded : step dev (.loadKey reader) =
      some { dev with readers := dev.readers.set reader (.loaded dev.keyvalue) } := by
    dsimp only [step]
    rw [idle]
  have isLoaded : (dev.readers.set reader (.loaded dev.keyvalue))[reader]? =
      some (.loaded dev.keyvalue) := List.getElem?_set_self inRange
  unfold readAlone
  rw [loaded]
  dsimp only [step]
  rw [isLoaded]
  dsimp only
  rw [if_pos succeeds.symm]
  dsimp only
  rw [List.set_set, if_pos rfl, List.getElem?_set_self inRange]
  exact ⟨_, rfl⟩

/-- Where every step is allowed, a read never succeeds without a press of its
own, and an unread press is there for the next read that runs alone. -/
theorem key_debounced {readers : Nat} {history : List Act} {dev : Device}
    (run : RunsWhere (keySystem readers) Allowed history dev) :
    successes history ≤ presses history ∧
      (unread history = true → (∀ phase ∈ dev.readers, phase = .idle) →
        ∀ reader, reader < dev.readers.length →
          ∃ after, readAlone dev reader = some (0, after)) := by
  obtain ⟨reads, _, flag, value⟩ := runs_accounted run
  refine ⟨Nat.le_trans (Nat.le_add_right _ _) reads, fun isUnread noneReading reader inRange => ?_⟩
  have set := flag isUnread
  have idle : dev.readers[reader]? = some .idle := by
    rw [List.getElem?_eq_getElem inRange, noneReading _ (List.getElem_mem inRange)]
  have released : isReleased dev.keyvalue = true := by
    rcases value set with released | ⟨holder, phase, isPhase, holds⟩
    · exact released
    · rw [noneReading phase (List.mem_of_getElem? isPhase)] at holds
      cases holds
  exact readAlone_succeeds idle (Bool.and_eq_true_iff.mpr ⟨bne_iff_ne.mpr set, released⟩)

/-- The key is pressed and released, and no one has read it. -/
def pressHistory : List Act := [.sample true, .edge, .sample false, .edge]

def pressed : Device where
  keyvalue := 0x81
  releasekey := 1
  timer := false
  readers := [.idle]

def down : Device where
  keyvalue := 0x01
  releasekey := 0
  timer := false
  readers := [.idle]

theorem press_allowed : RunsWhere (keySystem 1) Allowed pressHistory pressed := by
  have armed : RunsWhere (keySystem 1) Allowed [.edge] { initialDevice 1 with timer := true } :=
    RunsWhere.next (RunsWhere.start rfl) trivial rfl
  have held : RunsWhere (keySystem 1) Allowed [.sample false, .edge] down :=
    RunsWhere.next armed (Or.inl rfl) rfl
  have released : RunsWhere (keySystem 1) Allowed [.edge, .sample false, .edge]
      { down with timer := true } := RunsWhere.next held trivial rfl
  exact RunsWhere.next released (Or.inl rfl) rfl

theorem press_read :
    RunsWhere (keySystem 1) Allowed pressHistory pressed ∧
      successes pressHistory ≤ presses pressHistory ∧
      ∃ after, readAlone pressed 0 = some (0, after) := by
  have semantics := key_debounced press_allowed
  have noneReading : ∀ phase ∈ pressed.readers, phase = .idle := by decide
  exact ⟨press_allowed, semantics.1, semantics.2 rfl noneReading 0 Nat.one_pos⟩

/-- A bounce: the timer samples a 1 with no 0 before it, and a read succeeds. -/
def bounceHistory : List Act :=
  [.clear 0, .loadFlag 0 true, .loadKey 0, .sample true, .edge]

/-- The key goes down again before anyone has read the press. -/
def secondPress : Device where
  keyvalue := 0x01
  releasekey := 1
  timer := false
  readers := [.idle]

theorem key_not_debounced :
    (∃ dev, Runs (keySystem 1) bounceHistory dev ∧
      ¬successes bounceHistory ≤ presses bounceHistory) ∧
    Runs (keySystem 1) (.sample false :: .edge :: pressHistory) secondPress ∧
      unread (.sample false :: .edge :: pressHistory) = true ∧
      (∀ phase ∈ secondPress.readers, phase = .idle) ∧
      readAlone secondPress 0 = some (-EINVAL, secondPress) := by
  refine ⟨?_, ?_, rfl, by decide, by decide⟩
  · refine ⟨{ pressed with releasekey := 0 }, ?_, by decide⟩
    have armed : Runs (keySystem 1) [.edge] { initialDevice 1 with timer := true } :=
      Runs.next (Runs.start rfl) rfl
    have sampled : Runs (keySystem 1) [.sample true, .edge] pressed := Runs.next armed rfl
    have loaded : Runs (keySystem 1) [.loadKey 0, .sample true, .edge]
        { pressed with readers := [.loaded 0x81] } := Runs.next sampled rfl
    have found : Runs (keySystem 1) [.loadFlag 0 true, .loadKey 0, .sample true, .edge]
        { pressed with readers := [.found 0x01] } := Runs.next loaded rfl
    exact Runs.next found rfl
  · have again : Runs (keySystem 1) (.edge :: pressHistory) { pressed with timer := true } :=
      Runs.next press_allowed.run rfl
    exact Runs.next again rfl

end BuildLinux.Concrete.DebouncedKey
