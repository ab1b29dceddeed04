/-
Several V4L2 devices and the one operations table they share.

Devices are initialised in any order, again if need be, between frame operations
that go through the pointer each of them keeps.  An initialisation for reading
and writing replaces the pair in the table for good, so the devices keep their
methods as long as no streaming device lives beside or behind one.
-/

import BuildLinux.Concrete.V4l2Device
import BuildLinux.TransitionSystem

namespace BuildLinux.Concrete.V4l2Operations

open TransitionSystem V4l2Device

variable {name : Type}

structure Devices (name : Type) where
  table : VideoOpr
  device : name → VideoDevice
  driver : name → Driver
  buf : name → VideoBuf

inductive Action (name : Type) where
  | init (which : name) (answers : Answers)
  | getFrame (which : name) (answer : FrameAnswer)
  | putFrame (which : name) (accepts : Bool)

section Runs

variable [DecidableEq name]

inductive Step : Devices name → Action name → Devices name → Prop where
  | init (devices : Devices name) (which : name) (answers : Answers) {result : Initialised}
      (returned :
        v4l2InitDevice answers (devices.device which) devices.table = some result) :
      Step devices (.init which answers)
        { table := result.table
          device := Function.update devices.device which result.device
          driver := Function.update devices.driver which result.driver
          buf := devices.buf }
  | getFrame (devices : Devices name) (which : name) (answer : FrameAnswer) {opr : VideoOpr}
      {result : FrameResult}
      (reached : operationsOf devices.table (devices.device which) = some opr)
      (called : callGetFrame opr.GetFrame answer (devices.device which) (devices.driver which)
        (devices.buf which) = result) :
      Step devices (.getFrame which answer)
        { table := devices.table
          device := Function.update devices.device which result.device
          driver := Function.update devices.driver which result.driver
          buf := Function.update devices.buf which result.buf }
  | putFrame (devices : Devices name) (which : name) (accepts : Bool) {opr : VideoOpr}
      {iError : Int} {after : Driver}
      (reached : operationsOf devices.table (devices.device which) = some opr)
      (called : callPutFrame opr.PutFrame accepts (devices.device which) (devices.driver which) =
        (iError, after)) :
      Step devices (.putFrame which accepts)
        { devices with driver := Function.update devices.driver which after }

def devicesSystem : System (Devices name) (Action name) where
  Initial devices := devices.table = tV4l2VideoOpr
  Step := Step

def Action.method : Action name → Option FrameMethod
  | .init _ answers => answers.querycap.bind setUpMethod
  | .getFrame _ _ => none
  | .putFrame _ _ => none

/-- How a device was set up when it was last initialised. -/
def setUp (which : name) : List (Action name) → Option FrameMethod
  | [] => none
  | .init other answers :: earlier =>
      if other = which then answers.querycap.bind setUpMethod else setUp which earlier
  | .getFrame _ _ :: earlier => setUp which earlier
  | .putFrame _ _ :: earlier => setUp which earlier

def readWriteSet (history : List (Action name)) : Bool :=
  history.any fun act => act.method == some .readWrite

/-- Every device reaches the pair it was set up for. -/
def KeepsMethods (history : List (Action name)) (devices : Devices name) : Prop :=
  ∀ which method, setUp which history = some method →
    operationsOf devices.table (devices.device which) =
      some { GetFrame := method, PutFrame := method }

def readWriteOpr : VideoOpr where
  GetFrame := .readWrite
  PutFrame := .readWrite

/-- The table and the pointers behind every history. -/
structure Shared (history : List (Action name)) (devices : Devices name) : Prop where
  table : devices.table = if readWriteSet history then readWriteOpr else tV4l2VideoOpr
  reached : ∀ which method, setUp which history = some method →
    (devices.device which).ptOPr = .operations

theorem init_shared {history : List (Action name)} {devices : Devices name}
    (shared : Shared history devices) {which : name} {answers : Answers} {result : Initialised}
    (returned : v4l2InitDevice answers (devices.device which) devices.table = some result) :
    Shared (.init which answers :: history)
      { table := result.table
        device := Function.update devices.device which result.device
        driver := Function.update devices.driver which result.driver
        buf := devices.buf } := by
  obtain ⟨_, capabilities, _, _, inner, isCap, _, _, _, _, isInner, isResult⟩ :=
    v4l2InitDevice_some_iff.mp returned
  have table : result.table =
      if setUpMethod capabilities = some .readWrite then readWriteOpr else devices.table := by
    have innerTable := setUpBuffers_table isInner
    rw [isResult]
    exact innerTable
  constructor
  · dsimp only
    rw [table, shared.table]
    by_cases readsWrites : setUpMethod capabilities = some .readWrite
    · simp [readWriteSet, Action.method, isCap, readsWrites]
    · simp [readWriteSet, Action.method, isCap, readsWrites]
  · intro other method isSetUp
    by_cases isWhich : other = which
    · rw [isWhich, isResult]
      dsimp only
      rw [Function.update_self]
      exact withOperations_ptOPr inner.device
    · rw [setUp, if_neg (Ne.symm isWhich)] at isSetUp
      dsimp only
      rw [Function.update_of_ne isWhich]
      exact shared.reached other method isSetUp

theorem runs_shared {history : List (Action name)} {devices : Devices name}
    (run : Runs devicesSystem history devices) : Shared history devices := by
  apply run.invariant Shared
  · intro initial isInitial
    exact ⟨isInitial, fun which method isSetUp => nomatch isSetUp⟩
  · intro history before act after _ shared step
    cases step with
    | init which answers returned => exact init_shared shared returned
    | getFrame which answer reached called =>
        constructor
        · exact shared.table
        · intro other method isSetUp
          have earlier := shared.reached other method isSetUp
          by_cases isWhich : other = which
          · subst isWhich
            dsimp only
            rw [Function.update_self, ← called, VideoDevice.ptOPr, callGetFrame_cells]
            exact earlier
          · dsimp only
            rw [Function.update_of_ne isWhich]
            exact earlier
    | putFrame which accepts reached called =>
        exact ⟨shared.table, shared.reached⟩

theorem setUp_readWrite {history : List (Action name)} {which : name}
    (isSetUp : setUp which history = some .readWrite) : readWriteSet history = true := by
  induction history with
  | nil => cases isSetUp
  | cons act earlier ih =>
      cases act with
      | init other answers =>
          rw [setUp] at isSetUp
          split at isSetUp
          · simp [readWriteSet, Action.method, isSetUp]
          · have before := ih isSetUp
            unfold readWriteSet at before ⊢
            rw [List.any_cons, before, Bool.or_true]
      | getFrame other answer => exact ih isSetUp
      | putFrame other accepts => exact ih isSetUp

/-- All devices keep their methods exactly as long as there is no device set up
for streaming beside an initialisation for reading and writing. -/
theorem methods_kept_iff {history : List (Action name)} {devices : Devices name}
    (run : Runs devicesSystem history devices) :
    KeepsMethods history devices ↔
      ¬(readWriteSet history = true ∧ ∃ which, setUp which history = some .streaming) := by
  have shared := runs_shared run
  have reaches {which : name} {method : FrameMethod}
      (isSetUp : setUp which history = some method) :
      operationsOf devices.table (devices.device which) = some devices.table :=
    if_pos (shared.reached which method isSetUp)
  constructor
  · rintro keeps ⟨replaced, which, isStreaming⟩
    have kept := keeps which .streaming isStreaming
    rw [reaches isStreaming, shared.table, replaced] at kept
    cases kept
  · intro apart which method isSetUp
    rw [reaches isSetUp, shared.table]
    cases method with
    | streaming =>
        cases replaced : readWriteSet history with
        | true => exact absurd ⟨replaced, which, isSetUp⟩ apart
        | false => rfl
    | readWrite =>
        rw [setUp_readWrite isSetUp]
        rfl

end Runs

/-! ### Two cameras -/

def noDevices : Devices Bool where
  table := tV4l2VideoOpr
  device _ := blankDevice
  driver _ := { granted := 0, queued := [] }
  buf _ := noPicture

theorem streaming_cameras :
    ∃ history devices, Runs devicesSystem history devices ∧
      history = [.init true (camera true true), .init false (camera true false)] ∧
      KeepsMethods history devices := by
  have begun : Runs devicesSystem [] noDevices := Runs.start rfl
  have first := Runs.next begun (Step.init _ false (camera true false) rfl)
  have run := Runs.next first (Step.init _ true (camera true true) rfl)
  have kept := (methods_kept_iff run).mpr fun mixed => Bool.false_ne_true mixed.1
  exact ⟨_, _, run, rfl, kept⟩

/-- The streaming camera initialised first reads with the other one's pair. -/
theorem mixed_cameras :
    ∃ history devices, Runs devicesSystem history devices ∧
      history = [.init true (camera false true), .init false (camera true false)] ∧
      setUp false history = some .streaming ∧
      operationsOf devices.table (devices.device false) = some readWriteOpr ∧
      ¬KeepsMethods history devices := by
  have begun : Runs devicesSystem [] noDevices := Runs.start rfl
  have first := Runs.next begun (Step.init _ false (camera true false) rfl)
  have run := Runs.next first (Step.init _ true (camera false true) rfl)
  refine ⟨_, _, run, rfl, rfl, rfl, fun kept => ?_⟩
  have reached := kept false .streaming rfl
  exact absurd reached (by decide)

end BuildLinux.Concrete.V4l2Operations
