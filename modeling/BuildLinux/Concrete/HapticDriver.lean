/-
The ioctl of the DRV260X haptic driver, with PLAY, START and STOP.

The whole switch runs under the mutex of the device: the request is copied and
validated, the registers are written, and PLAY sleeps, before the one unlock.
Register writes succeed.
-/

import BuildLinux.LockedSections

namespace BuildLinux.Concrete.HapticDriver

open LockedSections TransitionSystem

def EFAULT : Int := 14

def EINVAL : Int := 22

def ENOTTY : Int := 25

/-- `_IOW('v', 0x01, struct drv260x_play_req)`. -/
def DRV260X_IOC_PLAY : BitVec 32 := 0x40087601

/-- `_IOW('v', 0x02, __u8)`. -/
def DRV260X_IOC_START : BitVec 32 := 0x40017602

/-- `_IO('v', 0x03)`. -/
def DRV260X_IOC_STOP : BitVec 32 := 0x7603

structure PlayReq where
  strength : BitVec 8
  durationMs : BitVec 32
  deriving DecidableEq, Repr

structure Request where
  cmd : BitVec 32
  arg : BitVec 64
  deriving DecidableEq, Repr

/-- What `copy_from_user` reads at an address while the call has the mutex. -/
structure UserMemory where
  playReq : BitVec 64 → Option PlayReq
  strength : BitVec 64 → Option (BitVec 8)

inductive Action where
  | writeReg (reg val : BitVec 8)
  | msleep (msecs : BitVec 32)
  deriving DecidableEq, Repr

structure Outcome where
  result : Int
  actions : List Action
  deriving DecidableEq, Repr

/-! ### The ioctl -/

def startMotor (strength : BitVec 8) : List Action :=
  [.writeReg 0x01 0x05, .writeReg 0x1a 0x00, .writeReg 0x02 strength, .writeReg 0x0c 0x01]

def stopMotor : List Action := [.writeReg 0x02 0x00, .writeReg 0x0c 0x01]

/-- What the section between the lock and the unlock does, and what is returned. -/
def drv260xIoctl (request : Request) (memory : UserMemory) : Outcome :=
  if request.cmd = DRV260X_IOC_PLAY then
    match memory.playReq request.arg with
    | none => ⟨-EFAULT, []⟩
    | some req =>
        if 127 < req.strength ∨ req.durationMs = 0 then ⟨-EINVAL, []⟩
        else ⟨0, startMotor req.strength ++ .msleep req.durationMs :: stopMotor⟩
  else if request.cmd = DRV260X_IOC_START then
    match memory.strength request.arg with
    | none => ⟨-EFAULT, []⟩
    | some strength => if 127 < strength then ⟨-EINVAL, []⟩ else ⟨0, startMotor strength⟩
  else if request.cmd = DRV260X_IOC_STOP then ⟨0, stopMotor⟩
  else ⟨-ENOTTY, []⟩

def sectionActions (request : Request) (memory : UserMemory) : List Action :=
  (drv260xIoctl request memory).actions

abbrev Registers : Type := BitVec 8 → BitVec 8

def runAction : Action → Registers → Registers
  | .writeReg reg val, registers => Function.update registers reg val
  | .msleep _, registers => registers

def REG_STRENGTH : BitVec 8 := 0x02

/-- Any number of processes; the strength register starts with 0. -/
def drv260xCalls (process : Type) [DecidableEq process] :
    System (State process Request UserMemory Action Registers)
      (Act process Request UserMemory Action) :=
  lockedCalls sectionActions runAction fun registers => registers REG_STRENGTH = 0

/-! ### What one call writes -/

/-- The ways through the switch. -/
theorem drv260xIoctl_cases (request : Request) (memory : UserMemory) :
    (∃ req : PlayReq, request.cmd = DRV260X_IOC_PLAY ∧ req.strength ≤ 127 ∧
        drv260xIoctl request memory =
          ⟨0, startMotor req.strength ++ .msleep req.durationMs :: stopMotor⟩) ∨
      (∃ strength, request.cmd = DRV260X_IOC_START ∧ strength ≤ 127 ∧
        drv260xIoctl request memory = ⟨0, startMotor strength⟩) ∨
      (request.cmd = DRV260X_IOC_STOP ∧ drv260xIoctl request memory = ⟨0, stopMotor⟩) ∨
      ∃ error, error ≠ 0 ∧ drv260xIoctl request memory = ⟨error, []⟩ := by
  unfold drv260xIoctl
  split
  next isPlay =>
      cases memory.playReq request.arg with
      | none => exact Or.inr (Or.inr (Or.inr ⟨-EFAULT, by decide, rfl⟩))
      | some req =>
          dsimp only
          split
          · exact Or.inr (Or.inr (Or.inr ⟨-EINVAL, by decide, rfl⟩))
          next valid =>
              exact Or.inl ⟨req, isPlay, BitVec.not_lt.mp (not_or.mp valid).1, rfl⟩
  next notPlay =>
      split
      next isStart =>
          cases memory.strength request.arg with
          | none => exact Or.inr (Or.inr (Or.inr ⟨-EFAULT, by decide, rfl⟩))
          | some strength =>
              dsimp only
              split
              · exact Or.inr (Or.inr (Or.inr ⟨-EINVAL, by decide, rfl⟩))
              next valid =>
                  exact Or.inr (Or.inl ⟨strength, isStart, BitVec.not_lt.mp valid, rfl⟩)
      next notStart =>
          split
          next isStop => exact Or.inr (Or.inr (Or.inl ⟨isStop, rfl⟩))
          next notStop => exact Or.inr (Or.inr (Or.inr ⟨-ENOTTY, by decide, rfl⟩))

/-- The value that an action writes to the strength register. -/
def strengthWritten : Action → Option (BitVec 8)
  | .writeReg reg val => if reg = REG_STRENGTH then some val else none
  | .msleep _ => none

/-- The last strength written, if any was. -/
def lastStrength {process : Type} (history : List (Act process Request UserMemory Action)) :
    Option (BitVec 8) :=
  (performed history).findSome? fun done => strengthWritten done.2

theorem startMotor_strength {strength value : BitVec 8} {done : Action}
    (member : done ∈ startMotor strength) (writes : strengthWritten done = some value) :
    value = strength := by
  simp only [startMotor, List.mem_cons, List.not_mem_nil, or_false] at member
  rcases member with rfl | rfl | rfl | rfl <;> cases writes
  rfl

theorem stopMotor_strength {value : BitVec 8} {done : Action} (member : done ∈ stopMotor)
    (writes : strengthWritten done = some value) : value = 0 := by
  simp only [stopMotor, List.mem_cons, List.not_mem_nil, or_false] at member
  rcases member with rfl | rfl <;> cases writes
  rfl

theorem play_strength {strength value : BitVec 8} {msecs : BitVec 32} {done : Action}
    (member : done ∈ startMotor strength ++ .msleep msecs :: stopMotor)
    (writes : strengthWritten done = some value) : value = strength ∨ value = 0 := by
  rcases List.mem_append.mp member with starting | later
  · exact Or.inl (startMotor_strength starting writes)
  · rcases List.mem_cons.mp later with rfl | stopping
    · cases writes
    · exact Or.inr (stopMotor_strength stopping writes)

theorem section_strength_le {request : Request} {memory : UserMemory} {value : BitVec 8}
    {done : Action} (member : done ∈ sectionActions request memory)
    (writes : strengthWritten done = some value) : value ≤ 127 := by
  unfold sectionActions at member
  rcases drv260xIoctl_cases request memory with ⟨req, _, valid, run⟩ | ⟨strength, _, valid, run⟩ |
    ⟨_, run⟩ | ⟨error, _, run⟩ <;> rw [run] at member
  · rcases play_strength member writes with rfl | rfl
    · exact valid
    · decide
  · rw [startMotor_strength member writes]
    exact valid
  · rw [stopMotor_strength member writes]
    decide
  · cases member

/-- Only PLAY and START write a strength other than 0. -/
theorem section_strength_nonzero {request : Request} {memory : UserMemory} {value : BitVec 8}
    {done : Action} (member : done ∈ sectionActions request memory)
    (writes : strengthWritten done = some value) (nonzero : value ≠ 0) :
    request.cmd = DRV260X_IOC_START ∨ request.cmd = DRV260X_IOC_PLAY := by
  unfold sectionActions at member
  rcases drv260xIoctl_cases request memory with ⟨req, isPlay, _, run⟩ |
    ⟨strength, isStart, _, run⟩ | ⟨_, run⟩ | ⟨error, _, run⟩ <;> rw [run] at member
  · exact Or.inr isPlay
  · exact Or.inl isStart
  · exact absurd (stopMotor_strength member writes) nonzero
  · cases member

/-- PLAY and STOP end with the motor stopped when they return 0. -/
theorem section_ends_stopped {request : Request} {memory : UserMemory}
    (playOrStop : request.cmd = DRV260X_IOC_PLAY ∨ request.cmd = DRV260X_IOC_STOP)
    (succeeded : (drv260xIoctl request memory).result = 0) :
    (sectionActions request memory).reverse.findSome? strengthWritten = some 0 := by
  unfold sectionActions
  rcases drv260xIoctl_cases request memory with ⟨req, _, _, run⟩ | ⟨strength, isStart, _, _⟩ |
    ⟨_, run⟩ | ⟨error, failed, run⟩
  · rw [run]
    rfl
  · rw [isStart] at playOrStop
    exact absurd playOrStop (by decide)
  · rw [run]
    rfl
  · rw [run] at succeeded
    exact absurd succeeded failed

theorem section_of_error {request : Request} {memory : UserMemory}
    (failed : (drv260xIoctl request memory).result ≠ 0) : sectionActions request memory = [] := by
  unfold sectionActions
  rcases drv260xIoctl_cases request memory with ⟨req, _, _, run⟩ | ⟨strength, _, _, run⟩ |
    ⟨_, run⟩ | ⟨error, _, run⟩
  · rw [run] at failed
    exact absurd rfl failed
  · rw [run] at failed
    exact absurd rfl failed
  · rw [run] at failed
    exact absurd rfl failed
  · rw [run]

/-! ### Every interleaving -/

/-- A call returns when its `leave` is taken; what it returns is decided by its section. -/
structure MotorSafe {process : Type} (history : List (Act process Request UserMemory Action))
    (registers : Registers) : Prop where
  bounded : (registers REG_STRENGTH).toNat ≤ 127
  uninterrupted : ∀ newer middle older ticket last first,
    performed history = newer ++ (ticket, last) :: (middle ++ (ticket, first) :: older) →
      ∀ between ∈ middle, between.1 = ticket
  stopped : ∀ later caller ticket request memory earlier,
    history = later ++ .leave caller ticket request memory :: earlier →
      request.cmd = DRV260X_IOC_PLAY ∨ request.cmd = DRV260X_IOC_STOP →
      (drv260xIoctl request memory).result = 0 →
      lastStrength earlier = some 0 ∨
        ∃ newer request' memory', ticket < newer ∧ (newer, request', memory') ∈ locks earlier ∧
          (request'.cmd = DRV260X_IOC_START ∨ request'.cmd = DRV260X_IOC_PLAY)
  errors_silent : ∀ later caller ticket request memory earlier,
    history = later ++ .leave caller ticket request memory :: earlier →
      (drv260xIoctl request memory).result ≠ 0 →
      ∀ done ∈ performed earlier, done.1 ≠ ticket

section Runs

variable {process : Type} [DecidableEq process]
  {history : List (Act process Request UserMemory Action)}
  {state : State process Request UserMemory Action Registers}

theorem strength_le (run : Runs (drv260xCalls process) history state) :
    state.device REG_STRENGTH ≤ 127 := by
  refine runs_device (fun registers => registers REG_STRENGTH ≤ 127) ?_ ?_ run
  · intro registers isZero
    rw [isZero]
    decide
  · intro request memory done member registers bounded
    cases done with
    | msleep msecs => exact bounded
    | writeReg reg val =>
        change Function.update registers reg val REG_STRENGTH ≤ 127
        by_cases isStrength : reg = REG_STRENGTH
        · rw [isStrength, Function.update_self]
          exact section_strength_le member (if_pos isStrength)
        · rw [Function.update_of_ne (Ne.symm isStrength)]
          exact bounded

theorem leave_stopped {caller : process} {ticket : Nat} {request : Request} {memory : UserMemory}
    (run : Runs (drv260xCalls process) (.leave caller ticket request memory :: history) state)
    (playOrStop : request.cmd = DRV260X_IOC_PLAY ∨ request.cmd = DRV260X_IOC_STOP)
    (succeeded : (drv260xIoctl request memory).result = 0) :
    lastStrength history = some 0 ∨
      ∃ newer request' memory', ticket < newer ∧ (newer, request', memory') ∈ locks history ∧
        (request'.cmd = DRV260X_IOC_START ∨ request'.cmd = DRV260X_IOC_PLAY) := by
  obtain ⟨latest, found, fromOwn | fromLater⟩ :=
    runs_leave_latest strengthWritten run (section_ends_stopped playOrStop succeeded)
  · rw [fromOwn] at found
    exact Or.inl found
  · obtain ⟨newer, request', memory', done, after, locked, member, writes⟩ := fromLater
    by_cases isZero : latest = 0
    · rw [isZero] at found
      exact Or.inl found
    · exact Or.inr ⟨newer, request', memory', after, locked,
        section_strength_nonzero member writes isZero⟩

theorem leave_silent {caller : process} {ticket : Nat} {request : Request} {memory : UserMemory}
    (run : Runs (drv260xCalls process) (.leave caller ticket request memory :: history) state)
    (failed : (drv260xIoctl request memory).result ≠ 0) :
    ∀ done ∈ performed history, done.1 ≠ ticket := by
  intro done member same
  have whole := (runs_leave run).2
  rw [section_of_error failed] at whole
  have own : done.2 ∈ actionsOf ticket history := by
    rw [mem_actionsOf, ← same]
    exact member
  rw [whole] at own
  cases own

theorem motor_safe (run : Runs (drv260xCalls process) history state) :
    MotorSafe history state.device := by
  constructor
  · exact BitVec.le_def.mp (strength_le run)
  · exact fun newer middle older ticket last first shape => runs_contiguous run shape
  · intro later caller ticket request memory earlier shape playOrStop succeeded
    rw [shape] at run
    obtain ⟨_, returned⟩ := run.earlierPart
    exact leave_stopped returned playOrStop succeeded
  · intro later caller ticket request memory earlier shape failed
    rw [shape] at run
    obtain ⟨_, returned⟩ := run.earlierPart
    exact leave_silent returned failed

end Runs

/-- A request at address 16, and nothing else. -/
def onePlay : UserMemory where
  playReq address := if address = 16 then some ⟨0x50, 200⟩ else none
  strength _ := none

def stopThenPlay : List (Act Bool Request UserMemory Action) :=
  [.leave false 1 ⟨DRV260X_IOC_PLAY, 16⟩ onePlay, .unlock false 1,
    .perform false 1 (.writeReg 0x0c 0x01), .perform false 1 (.writeReg 0x02 0x00),
    .perform false 1 (.msleep 200), .perform false 1 (.writeReg 0x0c 0x01),
    .perform false 1 (.writeReg 0x02 0x50), .issue true ⟨DRV260X_IOC_STOP, 0⟩,
    .perform false 1 (.writeReg 0x1a 0x00), .perform false 1 (.writeReg 0x01 0x05),
    .lock false 1 ⟨DRV260X_IOC_PLAY, 16⟩ onePlay,
    .leave true 0 ⟨DRV260X_IOC_STOP, 0⟩ onePlay, .unlock true 0,
    .perform true 0 (.writeReg 0x0c 0x01), .issue false ⟨DRV260X_IOC_PLAY, 16⟩,
    .perform true 0 (.writeReg 0x02 0x00), .lock true 0 ⟨DRV260X_IOC_STOP, 0⟩ onePlay,
    .issue true ⟨DRV260X_IOC_STOP, 0⟩]

/-- One process stops the motor while another waits for the mutex, which then plays; the first one
wants to stop the motor while it is playing. -/
theorem motor_safe_stop :
    ∃ registers, MotorSafe stopThenPlay registers ∧ registers REG_STRENGTH = 0 := by
  have started : Runs (drv260xCalls Bool) [] ⟨fun _ => .idle, false, 0, fun _ => 0⟩ :=
    Runs.start ⟨rfl, rfl, rfl, rfl⟩
  have issued : Runs (drv260xCalls Bool) [.issue true ⟨DRV260X_IOC_STOP, 0⟩] _ :=
    Runs.next started (Step.issue rfl)
  have locked : Runs (drv260xCalls Bool) (.lock true 0 _ onePlay :: _) _ :=
    Runs.next issued (Step.lock rfl rfl onePlay)
  have cleared : Runs (drv260xCalls Bool) (.perform true 0 _ :: _) _ :=
    Runs.next locked (Step.perform rfl)
  have waiting : Runs (drv260xCalls Bool) (.issue false ⟨DRV260X_IOC_PLAY, 16⟩ :: _) _ :=
    Runs.next cleared (Step.issue rfl)
  have gone : Runs (drv260xCalls Bool) (.perform true 0 _ :: _) _ :=
    Runs.next waiting (Step.perform rfl)
  have left : Runs (drv260xCalls Bool) (.leave true 0 _ _ :: .unlock true 0 :: _) _ :=
    Runs.next (Runs.next gone (Step.unlock rfl)) (Step.leave rfl)
  have lockedAgain : Runs (drv260xCalls Bool) (.lock false 1 _ onePlay :: _) _ :=
    Runs.next left (Step.lock rfl rfl onePlay)
  have triggered : Runs (drv260xCalls Bool) (.perform false 1 _ :: .perform false 1 _ :: _) _ :=
    Runs.next (Runs.next lockedAgain (Step.perform rfl)) (Step.perform rfl)
  have waitingAgain : Runs (drv260xCalls Bool) (.issue true ⟨DRV260X_IOC_STOP, 0⟩ :: _) _ :=
    Runs.next triggered (Step.issue rfl)
  have playing : Runs (drv260xCalls Bool) (.perform false 1 _ :: .perform false 1 _ :: _) _ :=
    Runs.next (Runs.next waitingAgain (Step.perform rfl)) (Step.perform rfl)
  have slept : Runs (drv260xCalls Bool) (.perform false 1 _ :: _) _ :=
    Runs.next playing (Step.perform rfl)
  have stopped : Runs (drv260xCalls Bool) (.perform false 1 _ :: .perform false 1 _ :: _) _ :=
    Runs.next (Runs.next slept (Step.perform rfl)) (Step.perform rfl)
  have played : Runs (drv260xCalls Bool) stopThenPlay _ :=
    Runs.next (Runs.next stopped (Step.unlock rfl)) (Step.leave rfl)
  exact ⟨_, motor_safe played, rfl⟩

end BuildLinux.Concrete.HapticDriver
