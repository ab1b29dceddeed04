/-
The ioctl of the DLPC3430 projector driver, as the patch that adds REG_INIT
leaves it.

Three of its commands call helpers whose I2C results are dropped.  The fourth
has no break behind it and falls through to the default.  Each message is one
`i2c_transfer`, which returns the number of messages executed or an error code.
-/

import Mathlib.Data.List.Basic
import Mathlib.Tactic.Common

namespace BuildLinux.Concrete.ProjectorDriver

def EFAULT : Int := 14

def EINVAL : Int := 22

/-- `_IO('D', 0x01)`. -/
def DLPC3430_IOCTL_POWER_ON : BitVec 32 := 0x4401

/-- `_IO('D', 0x02)`. -/
def DLPC3430_IOCTL_POWER_OFF : BitVec 32 := 0x4402

/-- `_IOW('D', 0x03, int)`. -/
def DLPC3430_IOCTL_SET_BRIGHTNESS : BitVec 32 := 0x40044403

/-- `_IO('D', 0x04)`. -/
def DLPC3430_IOCTL_REG_INIT : BitVec 32 := 0x4404

abbrev Message : Type := List (BitVec 8)

/-- A transfer is kept with what `i2c_transfer` returned for it. -/
inductive Action where
  | mutexLock
  | mutexUnlock
  | gpiodSetValue (value : Bool)
  | msleep (msec : Nat)
  | transfer (message : Message) (ret : Int)
  deriving DecidableEq, Repr

structure Outcome where
  result : Int
  actions : List Action
  deriving DecidableEq, Repr

/-! ### The helpers -/

def hwOnMessage : Message := [0x52, 0x07]

def hwOffMessage : Message := [0x52, 0x00]

/-- `bus i` is what the transfer of the `i`th message of the call returns. -/
def hwOn (bus : Nat → Int) : List Action :=
  [.gpiodSetValue false, .msleep 1000, .gpiodSetValue true, .msleep 2000,
    .transfer hwOnMessage (bus 0)]

def hwOff (bus : Nat → Int) : List Action :=
  [.transfer hwOffMessage (bus 0), .gpiodSetValue false]

def clampBrightness (brightness : Int) : Int :=
  let limited := if 420 < brightness then 420 else brightness
  if limited < 0 then 0 else limited

def brightnessMessage (brightness : BitVec 32) : Message :=
  let clamped := clampBrightness brightness.toInt
  let low := BitVec.ofInt 8 clamped
  let high := BitVec.ofInt 8 (clamped / 256)
  [0x54, low, high, low, high, low, high]

def setBrightness (bus : Nat → Int) (brightness : BitVec 32) : List Action :=
  [.transfer (brightnessMessage brightness) (bus 0)]

def regInitMessages : List Message :=
  [[0x16, 0x01],
    [0x10, 0x00, 0x00, 0x00, 0x00, 0xd0, 0x02, 0xe0, 0x01],
    [0x12, 67, 0x00, 0x00, 0x00, 0xd0, 0x02, 0xe0, 0x01],
    [0x2e, 0xd0, 0x02, 0xE0, 0x01],
    [0x14, 0x04],
    [0x07, 0x40],
    [0x05, 0x00],
    [0x14, 0x04],
    [0x07, 0x40],
    [0x05, 0x00],
    [0x16, 0x00]]

/-- The number of bytes sent if the one message was executed, else the error code. -/
def i2cMasterSend (message : Message) (ret : Int) : Int :=
  if ret = 1 then message.length else ret

/-- The loop of `dlpc3430_reg_init` over the messages left. -/
def regInit (bus : Nat → Int) : List Message → Nat → Outcome
  | [], _ => ⟨0, []⟩
  | message :: rest, i =>
      let ret := i2cMasterSend message (bus i)
      if ret < 0 then ⟨ret, [.transfer message (bus i)]⟩
      else
        let later := regInit bus rest (i + 1)
        ⟨later.result, .transfer message (bus i) :: later.actions⟩

/-- Each way out of the switch unlocks the mutex once. -/
def unlockAndReturn (result : Int) (actions : List Action) : Outcome :=
  ⟨result, .mutexLock :: (actions ++ [.mutexUnlock])⟩

/-- `user arg` is the int that `copy_from_user` reads, if it can. -/
def dlpc3430Ioctl (bus : Nat → Int) (user : BitVec 64 → Option (BitVec 32)) (cmd : BitVec 32)
    (arg : BitVec 64) : Outcome :=
  if cmd = DLPC3430_IOCTL_POWER_ON then unlockAndReturn 0 (hwOn bus)
  else if cmd = DLPC3430_IOCTL_POWER_OFF then unlockAndReturn 0 (hwOff bus)
  else if cmd = DLPC3430_IOCTL_SET_BRIGHTNESS then
    match user arg with
    | none => unlockAndReturn (-EFAULT) []
    | some brightness => unlockAndReturn 0 (setBrightness bus brightness)
  else if cmd = DLPC3430_IOCTL_REG_INIT then
    -- there is no break: the default follows
    unlockAndReturn (-EINVAL) (regInit bus regInitMessages 0).actions
  else unlockAndReturn (-EINVAL) []

/-! ### What a call transferred -/

/-- The messages a defined command consists of; brightness takes its argument. -/
def commandMessages (user : BitVec 64 → Option (BitVec 32)) (cmd : BitVec 32)
    (arg : BitVec 64) : Option (List Message) :=
  if cmd = DLPC3430_IOCTL_POWER_ON then some [hwOnMessage]
  else if cmd = DLPC3430_IOCTL_POWER_OFF then some [hwOffMessage]
  else if cmd = DLPC3430_IOCTL_SET_BRIGHTNESS then
    (user arg).map fun brightness => [brightnessMessage brightness]
  else if cmd = DLPC3430_IOCTL_REG_INIT then some regInitMessages
  else none

def transferredMessage : Action → Option Message
  | .transfer message ret => if ret = 1 then some message else none
  | _ => none

def transferred (actions : List Action) : List Message := actions.filterMap transferredMessage

@[simp] theorem transferred_append (earlier later : List Action) :
    transferred (earlier ++ later) = transferred earlier ++ transferred later :=
  List.filterMap_append

@[simp] theorem transferred_transfer (message : Message) (ret : Int) (later : List Action) :
    transferred (.transfer message ret :: later) =
      if ret = 1 then message :: transferred later else transferred later := by
  rw [transferred, List.filterMap_cons, transferredMessage]
  split <;> simp_all [transferred]

theorem transferred_unlockAndReturn (result : Int) (actions : List Action) :
    transferred (unlockAndReturn result actions).actions = transferred actions := by
  change transferred (actions ++ [.mutexUnlock]) = transferred actions
  rw [transferred_append]
  exact List.append_nil _

/-- What a report of what happened takes: one release of the mutex, at the
end, and 0 for the commands whose messages all went out. -/
structure ReportsWhatHappened (user : BitVec 64 → Option (BitVec 32)) (cmd : BitVec 32)
    (arg : BitVec 64) (outcome : Outcome) : Prop where
  unlocked_once : outcome.actions.count .mutexUnlock = 1
  unlocked_last : outcome.actions.getLast? = some .mutexUnlock
  zero_iff : outcome.result = 0 ↔
    commandMessages user cmd arg = some (transferred outcome.actions)

/-! ### The mutex -/

theorem regInit_keeps_lock (bus : Nat → Int) (messages : List Message) (i : Nat) :
    Action.mutexUnlock ∉ (regInit bus messages i).actions := by
  induction messages generalizing i with
  | nil => exact List.not_mem_nil
  | cons message rest ih =>
      unfold regInit
      dsimp only
      split
      · simp only [List.mem_singleton, reduceCtorEq, not_false_eq_true]
      · simp only [List.mem_cons, reduceCtorEq, false_or]
        exact ih (i + 1)

theorem unlockAndReturn_unlocks {result : Int} {actions : List Action}
    (keeps : Action.mutexUnlock ∉ actions) :
    (unlockAndReturn result actions).actions.count .mutexUnlock = 1 ∧
      (unlockAndReturn result actions).actions.getLast? = some .mutexUnlock := by
  unfold unlockAndReturn
  refine ⟨?_, ?_⟩
  · rw [List.count_cons_of_ne (by decide), List.count_append, List.count_eq_zero_of_not_mem keeps]
    rfl
  · rw [← List.cons_append, List.getLast?_concat]

/-- The actions of every way through the switch. -/
theorem dlpc3430Ioctl_cases (bus : Nat → Int) (user : BitVec 64 → Option (BitVec 32))
    (cmd : BitVec 32) (arg : BitVec 64) :
    ∃ result actions, dlpc3430Ioctl bus user cmd arg = unlockAndReturn result actions ∧
      Action.mutexUnlock ∉ actions := by
  unfold dlpc3430Ioctl
  split
  · exact ⟨0, hwOn bus, rfl, by simp [hwOn]⟩
  · split
    · exact ⟨0, hwOff bus, rfl, by simp [hwOff]⟩
    · split
      · cases user arg with
        | none => exact ⟨-EFAULT, [], rfl, List.not_mem_nil⟩
        | some brightness => exact ⟨0, _, rfl, by simp [setBrightness]⟩
      · split
        · exact ⟨-EINVAL, _, rfl, regInit_keeps_lock bus regInitMessages 0⟩
        · exact ⟨-EINVAL, [], rfl, List.not_mem_nil⟩

/-- Whatever the command and the bus do, the mutex is released once, at the end. -/
theorem dlpc3430Ioctl_unlocks (bus : Nat → Int) (user : BitVec 64 → Option (BitVec 32))
    (cmd : BitVec 32) (arg : BitVec 64) :
    (dlpc3430Ioctl bus user cmd arg).actions.count .mutexUnlock = 1 ∧
      (dlpc3430Ioctl bus user cmd arg).actions.getLast? = some .mutexUnlock := by
  obtain ⟨result, actions, same, keeps⟩ := dlpc3430Ioctl_cases bus user cmd arg
  rw [same]
  exact unlockAndReturn_unlocks keeps

/-! ### The result -/

theorem regInit_transferred_length (bus : Nat → Int) (messages : List Message) (i : Nat) :
    (transferred (regInit bus messages i).actions).length ≤ messages.length := by
  induction messages generalizing i with
  | nil => exact Nat.le_refl 0
  | cons message rest ih =>
      have later := ih (i + 1)
      unfold regInit
      dsimp only
      split
      · rw [transferred_transfer]
        split
        · exact Nat.succ_le_succ (Nat.zero_le rest.length)
        · exact Nat.zero_le _
      · rw [transferred_transfer]
        split
        · exact Nat.succ_le_succ later
        · exact Nat.le_succ_of_le later

/-- A message that was not executed is missing in what went out. -/
theorem regInit_transferred_of_failed {bus : Nat → Int} {message : Message}
    {rest : List Message} {i : Nat} (failed : bus i ≠ 1) :
    transferred (regInit bus (message :: rest) i).actions ≠ message :: rest := by
  intro whole
  have short : (transferred (regInit bus (message :: rest) i).actions).length ≤ rest.length := by
    unfold regInit
    dsimp only
    split
    · rw [transferred_transfer, if_neg failed]
      exact Nat.zero_le _
    · rw [transferred_transfer, if_neg failed]
      exact regInit_transferred_length bus rest (i + 1)
  rw [whole, List.length_cons] at short
  omega

theorem regInit_transferred_of_executed {bus : Nat → Int} {message : Message}
    {rest : List Message} {i : Nat} (executed : bus i = 1) :
    transferred (regInit bus (message :: rest) i).actions =
      message :: transferred (regInit bus rest (i + 1)).actions := by
  have goesOn : ¬i2cMasterSend message (bus i) < 0 := by
    rw [i2cMasterSend, if_pos executed]
    omega
  rw [regInit]
  dsimp only
  rw [if_neg goesOn, transferred_transfer, if_pos executed]

/-- The whole sequence went out exactly when each of its messages was executed. -/
theorem regInit_transferred_iff (bus : Nat → Int) (messages : List Message) (i : Nat) :
    transferred (regInit bus messages i).actions = messages ↔
      ∀ j < messages.length, bus (i + j) = 1 := by
  induction messages generalizing i with
  | nil => exact ⟨fun _ j below => absurd below (Nat.not_lt_zero j), fun _ => rfl⟩
  | cons message rest ih =>
      by_cases executed : bus i = 1
      · rw [regInit_transferred_of_executed executed, List.cons.injEq, ih]
        constructor
        · rintro ⟨_, later⟩ j below
          cases j with
          | zero => exact executed
          | succ j =>
              rw [Nat.add_comm j 1, ← Nat.add_assoc]
              exact later j (Nat.lt_of_succ_lt_succ below)
        · intro all
          refine ⟨rfl, fun j below => ?_⟩
          rw [Nat.add_assoc, Nat.add_comm 1 j]
          exact all (j + 1) (Nat.succ_lt_succ below)
      · exact ⟨fun whole => absurd whole (regInit_transferred_of_failed executed),
          fun all => absurd (all 0 (Nat.succ_pos _)) executed⟩

/-- A call whose one message went out has transferred just this message. -/
theorem oneMessage_iff (message : Message) (ret : Int) :
    some [message] = some (if ret = 1 then [message] else []) ↔ ret = 1 := by
  by_cases executed : ret = 1
  · rw [if_pos executed]
    exact ⟨fun _ => executed, fun _ => rfl⟩
  · rw [if_neg executed]
    exact ⟨fun same => (nomatch Option.some.inj same), fun same => absurd same executed⟩

/-- The results agree with the messages: a command that returns 0 whatever the
bus did had its message executed, and REG_INIT, which never returns 0, had not. -/
structure ResultFits (bus : Nat → Int) (user : BitVec 64 → Option (BitVec 32))
    (cmd : BitVec 32) (arg : BitVec 64) : Prop where
  power : cmd = DLPC3430_IOCTL_POWER_ON ∨ cmd = DLPC3430_IOCTL_POWER_OFF → bus 0 = 1
  brightness : cmd = DLPC3430_IOCTL_SET_BRIGHTNESS → (user arg).isSome = true → bus 0 = 1
  regInit : cmd = DLPC3430_IOCTL_REG_INIT → ∃ i < 11, bus i ≠ 1

variable {bus : Nat → Int} {user : BitVec 64 → Option (BitVec 32)} {arg : BitVec 64}

theorem powerOn_fits :
    ((dlpc3430Ioctl bus user DLPC3430_IOCTL_POWER_ON arg).result = 0 ↔
      commandMessages user DLPC3430_IOCTL_POWER_ON arg =
        some (transferred (dlpc3430Ioctl bus user DLPC3430_IOCTL_POWER_ON arg).actions)) ↔
      bus 0 = 1 := by
  have run : dlpc3430Ioctl bus user DLPC3430_IOCTL_POWER_ON arg =
      unlockAndReturn 0 (hwOn bus) := if_pos rfl
  have sent : transferred (hwOn bus) = if bus 0 = 1 then [hwOnMessage] else [] :=
    transferred_transfer hwOnMessage (bus 0) []
  rw [run, transferred_unlockAndReturn, sent, commandMessages, if_pos rfl, oneMessage_iff]
  exact ⟨fun fits => fits.mp rfl, fun executed => ⟨fun _ => executed, fun _ => rfl⟩⟩

theorem powerOff_fits :
    ((dlpc3430Ioctl bus user DLPC3430_IOCTL_POWER_OFF arg).result = 0 ↔
      commandMessages user DLPC3430_IOCTL_POWER_OFF arg =
        some (transferred (dlpc3430Ioctl bus user DLPC3430_IOCTL_POWER_OFF arg).actions)) ↔
      bus 0 = 1 := by
  have run : dlpc3430Ioctl bus user DLPC3430_IOCTL_POWER_OFF arg =
      unlockAndReturn 0 (hwOff bus) := rfl
  have messages : commandMessages user DLPC3430_IOCTL_POWER_OFF arg = some [hwOffMessage] := rfl
  have sent : transferred (hwOff bus) = if bus 0 = 1 then [hwOffMessage] else [] :=
    transferred_transfer hwOffMessage (bus 0) [.gpiodSetValue false]
  rw [run, transferred_unlockAndReturn, sent, messages, oneMessage_iff]
  exact ⟨fun fits => fits.mp rfl, fun executed => ⟨fun _ => executed, fun _ => rfl⟩⟩

theorem setBrightness_fits :
    ((dlpc3430Ioctl bus user DLPC3430_IOCTL_SET_BRIGHTNESS arg).result = 0 ↔
      commandMessages user DLPC3430_IOCTL_SET_BRIGHTNESS arg =
        some (transferred (dlpc3430Ioctl bus user DLPC3430_IOCTL_SET_BRIGHTNESS arg).actions)) ↔
      ((user arg).isSome = true → bus 0 = 1) := by
  have messages : commandMessages user DLPC3430_IOCTL_SET_BRIGHTNESS arg =
      (user arg).map fun brightness => [brightnessMessage brightness] := rfl
  cases copied : user arg with
  | none =>
      have run : dlpc3430Ioctl bus user DLPC3430_IOCTL_SET_BRIGHTNESS arg =
          unlockAndReturn (-EFAULT) [] := by
        change (match user arg with
          | none => unlockAndReturn (-EFAULT) []
          | some brightness => unlockAndReturn 0 (setBrightness bus brightness)) = _
        rw [copied]
      rw [run, messages, copied]
      refine ⟨fun _ impossible => (nomatch impossible), fun _ => ?_⟩
      exact ⟨fun zero => absurd zero (by decide), fun impossible => (nomatch impossible)⟩
  | some brightness =>
      have run : dlpc3430Ioctl bus user DLPC3430_IOCTL_SET_BRIGHTNESS arg =
          unlockAndReturn 0 (setBrightness bus brightness) := by
        change (match user arg with
          | none => unlockAndReturn (-EFAULT) []
          | some brightness => unlockAndReturn 0 (setBrightness bus brightness)) = _
        rw [copied]
      have sent : transferred (setBrightness bus brightness) =
          if bus 0 = 1 then [brightnessMessage brightness] else [] :=
        transferred_transfer (brightnessMessage brightness) (bus 0) []
      rw [run, transferred_unlockAndReturn, sent, messages, copied, Option.map_some,
        oneMessage_iff]
      exact ⟨fun fits _ => fits.mp rfl,
        fun executed => ⟨fun _ => executed rfl, fun _ => rfl⟩⟩

theorem regInit_fits :
    ((dlpc3430Ioctl bus user DLPC3430_IOCTL_REG_INIT arg).result = 0 ↔
      commandMessages user DLPC3430_IOCTL_REG_INIT arg =
        some (transferred (dlpc3430Ioctl bus user DLPC3430_IOCTL_REG_INIT arg).actions)) ↔
      ∃ i < 11, bus i ≠ 1 := by
  have run : dlpc3430Ioctl bus user DLPC3430_IOCTL_REG_INIT arg =
      unlockAndReturn (-EINVAL) (regInit bus regInitMessages 0).actions := rfl
  have messages : commandMessages user DLPC3430_IOCTL_REG_INIT arg = some regInitMessages := rfl
  have whole : some regInitMessages =
      some (transferred (regInit bus regInitMessages 0).actions) ↔ ∀ i < 11, bus i = 1 := by
    rw [Option.some.injEq, eq_comm, regInit_transferred_iff]
    simp only [Nat.zero_add]
    rfl
  have notZero :
      (unlockAndReturn (-EINVAL) (regInit bus regInitMessages 0).actions).result ≠ 0 := by
    change -EINVAL ≠ 0
    decide
  rw [run, transferred_unlockAndReturn, messages, whole, iff_false_left notZero]
  simp only [not_forall, exists_prop]

/-- An undefined command is rejected, and has no messages. -/
theorem undefined_fits {cmd : BitVec 32} (notOn : cmd ≠ DLPC3430_IOCTL_POWER_ON)
    (notOff : cmd ≠ DLPC3430_IOCTL_POWER_OFF) (notSet : cmd ≠ DLPC3430_IOCTL_SET_BRIGHTNESS)
    (notInit : cmd ≠ DLPC3430_IOCTL_REG_INIT) :
    (dlpc3430Ioctl bus user cmd arg).result ≠ 0 ∧ commandMessages user cmd arg = none := by
  have run : dlpc3430Ioctl bus user cmd arg = unlockAndReturn (-EINVAL) [] := by
    rw [dlpc3430Ioctl, if_neg notOn, if_neg notOff, if_neg notSet, if_neg notInit]
  have messages : commandMessages user cmd arg = none := by
    rw [commandMessages, if_neg notOn, if_neg notOff, if_neg notSet, if_neg notInit]
  rw [run]
  exact ⟨by decide, messages⟩

theorem zero_iff_fits (cmd : BitVec 32) :
    ((dlpc3430Ioctl bus user cmd arg).result = 0 ↔
      commandMessages user cmd arg =
        some (transferred (dlpc3430Ioctl bus user cmd arg).actions)) ↔
      ResultFits bus user cmd arg := by
  by_cases on : cmd = DLPC3430_IOCTL_POWER_ON
  · subst on
    rw [powerOn_fits]
    exact ⟨fun executed => ⟨fun _ => executed, fun impossible => absurd impossible (by decide),
      fun impossible => absurd impossible (by decide)⟩, fun fits => fits.power (Or.inl rfl)⟩
  by_cases off : cmd = DLPC3430_IOCTL_POWER_OFF
  · subst off
    rw [powerOff_fits]
    exact ⟨fun executed => ⟨fun _ => executed, fun impossible => absurd impossible (by decide),
      fun impossible => absurd impossible (by decide)⟩, fun fits => fits.power (Or.inr rfl)⟩
  have notPower := not_or.mpr ⟨on, off⟩
  by_cases set : cmd = DLPC3430_IOCTL_SET_BRIGHTNESS
  · subst set
    rw [setBrightness_fits]
    exact ⟨fun executed => ⟨fun power => absurd power notPower, fun _ => executed,
      fun impossible => absurd impossible (by decide)⟩, fun fits => fits.brightness rfl⟩
  by_cases init : cmd = DLPC3430_IOCTL_REG_INIT
  · subst init
    rw [regInit_fits]
    exact ⟨fun failed => ⟨fun power => absurd power notPower,
      fun brightness => absurd brightness set, fun _ => failed⟩, fun fits => fits.regInit rfl⟩
  obtain ⟨notZero, messages⟩ := @undefined_fits bus user arg cmd on off set init
  rw [messages]
  exact ⟨fun _ => ⟨fun power => absurd power notPower, fun brightness => absurd brightness set,
      fun impossible => absurd impossible init⟩,
    fun _ => ⟨fun zero => absurd zero notZero, fun impossible => (nomatch impossible)⟩⟩

theorem ioctl_reports_iff (bus : Nat → Int) (user : BitVec 64 → Option (BitVec 32))
    (cmd : BitVec 32) (arg : BitVec 64) :
    ReportsWhatHappened user cmd arg (dlpc3430Ioctl bus user cmd arg) ↔
      ResultFits bus user cmd arg := by
  rw [← zero_iff_fits]
  constructor
  · intro reports
    exact reports.zero_iff
  · intro fits
    have unlocks := dlpc3430Ioctl_unlocks bus user cmd arg
    exact ⟨unlocks.1, unlocks.2, fits⟩

/-- All eleven messages of REG_INIT go out, and the call returns -EINVAL. -/
theorem regInit_sent_rejected :
    ¬ReportsWhatHappened (fun _ => none) DLPC3430_IOCTL_REG_INIT 0
      (dlpc3430Ioctl (fun _ => 1) (fun _ => none) DLPC3430_IOCTL_REG_INIT 0) := by
  intro reports
  have zero := reports.zero_iff.mpr (by decide)
  exact absurd zero (by decide)

end BuildLinux.Concrete.ProjectorDriver
