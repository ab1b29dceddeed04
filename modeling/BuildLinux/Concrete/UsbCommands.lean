/-
The commands of the USB scripts on the whole system.

A process has a working directory of its own; everything else is shared.  A
changing command succeeds when the kernel allows it and the environment does
not make it fail, and a failed one changes nothing.  Unmounting configfs needs
the process to stand outside of it, and leaves the gadget trees as they are.
-/

import BuildLinux.Concrete.UsbGadget

namespace BuildLinux.Concrete.UsbCommands

open CommandScript (Reply Script)
open UsbGadget (Name Path Listing Gadget GadgetCommand)

inductive Directory where
  | root
  | usbGadgetDir
  | gadget (name : Name)

structure World where
  /-- `/sys/kernel/config` is a directory. -/
  configfsMount : Bool
  configfs : Bool
  gadgets : Listing Gadget
  umsMountDir : Bool
  umsFile : Bool
  umsMounted : Bool
  /-- `/proc/sys/kernel/hotplug`. -/
  hotplug : String
  /-- `/tmp/.usb_config`. -/
  usbConfig : String

abbrev State := Directory × World

/-- Whether the next command fails, and the text it reads from the system. -/
structure Choice where
  fails : Bool
  text : String

def Choice.Faultless (choice : Choice) : Prop := choice.fails = false

/-- The paths a command writes out, or one text as a single name. -/
abbrev Words := List Path

def textOf (words : Words) : String := words.flatten.headD ""

inductive Command where
  | startShell
  | testDirConfigfsMount
  | mkdirConfigfsMount
  | mountpointConfigfs
  | mountConfigfs
  | umountConfigfs
  | testDirGadget (name : Name)
  | cd (target : Directory)
  | cdInto (name : Name)
  | mkdirGadget (name : Name)
  | rmdirGadget (name : Name)
  | inGadget (change : GadgetCommand)
  /-- `echo value > ${usb_gadget_dir}/name/path` -/
  | echoGadget (name : Name) (value : String) (path : Path)
  /-- An unquoted variable assigned from `ls` or from `find -maxdepth 1 -type l`. -/
  | ls (word : Path)
  | find (word : Path)
  | serial
  | listUdc
  | usbState
  | mountpointUms
  | umountUms
  | mountUms
  | mkdirUms
  | testFileUms
  | truncateUms
  | mkfsUms
  | echoHotplug (value : String)
  | echoUsbConfig (value : String)

/-! ### Kernel state changes -/

namespace World

def mountConfigfs (world : World) : Option World :=
  if world.configfsMount = true ∧ world.configfs = false then
    some { world with configfs := true }
  else none

def umountConfigfs (world : World) : Directory → Option World
  | .root => if world.configfs = true then some { world with configfs := false } else none
  | _ => none

def gadget (world : World) (name : Name) : Option Gadget :=
  if world.configfs = true then world.gadgets.lookup name else none

def setGadget (world : World) (name : Name) (gadget : Gadget) : World :=
  { world with gadgets := world.gadgets.insert name gadget }

def mkdirGadget (world : World) (name : Name) : Directory → Option World
  | .usbGadgetDir =>
      if world.configfs = true ∧ name ∉ world.gadgets then
        some (world.setGadget name Gadget.created)
      else none
  | _ => none

def rmdirGadget (world : World) (name : Name) : Option World :=
  match world.gadget name with
  | none => none
  | some gadget =>
      if gadget.isEmpty then some { world with gadgets := world.gadgets.erase name } else none

/-- A second mount on the same directory is refused. -/
def mountUms (world : World) : Option World :=
  if world.umsMountDir = true ∧ world.umsFile = true ∧ world.umsMounted = false then
    some { world with umsMounted := true }
  else none

def umountUms (world : World) : Option World :=
  if world.umsMounted = true then some { world with umsMounted := false } else none

def hasDirectory (world : World) : Directory → Bool
  | .root => true
  | .usbGadgetDir => world.configfs
  | .gadget name => (world.gadget name).isSome

end World

/-! ### Commands -/

def tested (state : State) (holds : Bool) : Reply Words × State :=
  ({ ok := holds, out := [] }, state)

def written (choice : Choice) (state : State) (words : Words) : Reply Words × State :=
  if choice.fails then ({ ok := false, out := [] }, state)
  else ({ ok := true, out := words }, state)

def changed (choice : Choice) (state : State) (after : Option State) : Reply Words × State :=
  match choice.fails, after with
  | false, some after => ({ ok := true, out := [] }, after)
  | _, _ => ({ ok := false, out := [] }, state)

def changedWorld (choice : Choice) (state : State) (after : Option World) :
    Reply Words × State :=
  changed choice state (after.map fun world => (state.1, world))

def currentGadget : State → Option (Name × Gadget)
  | (.gadget name, world) => (world.gadget name).map fun gadget => (name, gadget)
  | _ => none

/-- `rm` and `rmdir` can fail after having removed a part of their operands. -/
def changedGadget (choice : Choice) (state : State) (change : GadgetCommand) :
    Reply Words × State :=
  match choice.fails, currentGadget state with
  | false, some (name, gadget) =>
      ({ ok := (change.apply gadget).1, out := [] },
        (state.1, state.2.setGadget name (change.apply gadget).2))
  | _, _ => ({ ok := false, out := [] }, state)

def wordsIn (state : State) (list : Gadget → Words) : Words :=
  match currentGadget state with
  | some (_, gadget) => gadget.unquoted (list gadget)
  | none => []

def exec (command : Command) (choice : Choice) (state : State) : Reply Words × State :=
  match command with
  | .startShell => ({ ok := true, out := [] }, (.root, state.2))
  | .testDirConfigfsMount => tested state state.2.configfsMount
  | .mkdirConfigfsMount =>
      changedWorld choice state (some { state.2 with configfsMount := true })
  | .mountpointConfigfs => tested state state.2.configfs
  | .mountConfigfs => changedWorld choice state state.2.mountConfigfs
  | .umountConfigfs => changedWorld choice state (state.2.umountConfigfs state.1)
  | .testDirGadget name => tested state (state.2.gadget name).isSome
  | .cd target =>
      changed choice state (if state.2.hasDirectory target then some (target, state.2) else none)
  | .cdInto name =>
      changed choice state (match state.1 with
        | .usbGadgetDir =>
            if (state.2.gadget name).isSome then some (.gadget name, state.2) else none
        | _ => none)
  | .mkdirGadget name => changedWorld choice state (state.2.mkdirGadget name state.1)
  | .rmdirGadget name => changedWorld choice state (state.2.rmdirGadget name)
  | .inGadget change => changedGadget choice state change
  | .echoGadget name value path =>
      changedWorld choice state (((state.2.gadget name).bind fun gadget =>
        gadget.write value path).map fun gadget => state.2.setGadget name gadget)
  | .ls word => written choice state (wordsIn state fun gadget => gadget.ls word)
  | .find word => written choice state (wordsIn state fun gadget => gadget.find word)
  | .serial => written choice state [[choice.text]]
  | .listUdc => written choice state [[choice.text]]
  | .usbState => written choice state [[choice.text]]
  | .mountpointUms => tested state state.2.umsMounted
  | .umountUms => changedWorld choice state state.2.umountUms
  | .mountUms => changedWorld choice state state.2.mountUms
  | .mkdirUms => changedWorld choice state (some { state.2 with umsMountDir := true })
  | .testFileUms => tested state state.2.umsFile
  | .truncateUms => changedWorld choice state (some { state.2 with umsFile := true })
  | .mkfsUms => changedWorld choice state (if state.2.umsFile then some state.2 else none)
  | .echoHotplug value => changedWorld choice state (some { state.2 with hotplug := value })
  | .echoUsbConfig value => changedWorld choice state (some { state.2 with usbConfig := value })

/-! ### What a command can do -/

namespace World

variable {world after : World}

theorem mountConfigfs_some (mounts : world.mountConfigfs = some after) :
    world.configfsMount = true ∧ world.configfs = false ∧
      after = { world with configfs := true } := by
  unfold mountConfigfs at mounts
  split at mounts
  · rename_i possible
    exact ⟨possible.1, possible.2, (Option.some.inj mounts).symm⟩
  · cases mounts

theorem umountConfigfs_some {cwd : Directory} (umounts : world.umountConfigfs cwd = some after) :
    cwd = .root ∧ world.configfs = true ∧ after = { world with configfs := false } := by
  unfold umountConfigfs at umounts
  split at umounts
  · split at umounts
    · exact ⟨rfl, ‹_›, (Option.some.inj umounts).symm⟩
    · cases umounts
  · cases umounts

theorem mkdirGadget_some {name : Name} {cwd : Directory}
    (makes : world.mkdirGadget name cwd = some after) :
    cwd = .usbGadgetDir ∧ world.configfs = true ∧ name ∉ world.gadgets ∧
      after = world.setGadget name Gadget.created := by
  unfold mkdirGadget at makes
  split at makes
  · split at makes
    · rename_i possible
      exact ⟨rfl, possible.1, possible.2, (Option.some.inj makes).symm⟩
    · cases makes
  · cases makes

theorem rmdirGadget_some {name : Name} (removes : world.rmdirGadget name = some after) :
    (∃ gadget, world.gadget name = some gadget ∧ gadget.isEmpty = true) ∧
      after = { world with gadgets := world.gadgets.erase name } := by
  unfold rmdirGadget at removes
  split at removes
  · cases removes
  · split at removes
    · exact ⟨⟨_, ‹_›, ‹_›⟩, (Option.some.inj removes).symm⟩
    · cases removes

theorem mountUms_some (mounts : world.mountUms = some after) :
    world.umsMountDir = true ∧ world.umsFile = true ∧ world.umsMounted = false ∧
      after = { world with umsMounted := true } := by
  unfold mountUms at mounts
  split at mounts
  · rename_i possible
    exact ⟨possible.1, possible.2.1, possible.2.2, (Option.some.inj mounts).symm⟩
  · cases mounts

theorem umountUms_some (umounts : world.umountUms = some after) :
    world.umsMounted = true ∧ after = { world with umsMounted := false } := by
  unfold umountUms at umounts
  split at umounts
  · exact ⟨‹_›, (Option.some.inj umounts).symm⟩
  · cases umounts

theorem gadget_some {name : Name} {gadget : Gadget} (found : world.gadget name = some gadget) :
    world.configfs = true ∧ world.gadgets.lookup name = some gadget := by
  unfold World.gadget at found
  split at found
  · exact ⟨‹_›, found⟩
  · cases found

end World

theorem changed_ok {choice : Choice} {state : State} {after : Option State}
    (succeeded : (changed choice state after).1.ok = true) :
    after = some (changed choice state after).2 := by
  unfold changed at succeeded ⊢
  cases fault : choice.fails with
  | true =>
      rw [fault] at succeeded
      cases succeeded
  | false =>
      cases after with
      | none =>
          rw [fault] at succeeded
          cases succeeded
      | some next => rfl

theorem changed_failed {choice : Choice} {state : State} {after : Option State}
    (failed : (changed choice state after).1.ok = false) :
    (changed choice state after).2 = state := by
  unfold changed at failed ⊢
  cases fault : choice.fails with
  | true => rfl
  | false =>
      cases after with
      | none => rfl
      | some next =>
          rw [fault] at failed
          cases failed

theorem changedWorld_ok {choice : Choice} {state : State} {after : Option World}
    (succeeded : (changedWorld choice state after).1.ok = true) :
    ∃ world, after = some world ∧ (changedWorld choice state after).2 = (state.1, world) := by
  have result := changed_ok succeeded
  obtain ⟨world, found, same⟩ := Option.map_eq_some_iff.mp result
  exact ⟨world, found, same.symm⟩

theorem changedWorld_failed {choice : Choice} {state : State} {after : Option World}
    (failed : (changedWorld choice state after).1.ok = false) :
    (changedWorld choice state after).2 = state :=
  changed_failed failed

theorem changedWorld_keeps {choice : Choice} {state : State} {after : Option World}
    (holds : World → Prop) (before : holds state.2)
    (keeps : ∀ world, after = some world → holds world) :
    holds (changedWorld choice state after).2.2 := by
  cases succeeded : (changedWorld choice state after).1.ok with
  | true =>
      obtain ⟨world, found, same⟩ := changedWorld_ok succeeded
      rw [same]
      exact keeps world found
  | false =>
      rw [changedWorld_failed succeeded]
      exact before

theorem changed_faultless {choice : Choice} {state next : State} {after : Option State}
    (faultless : choice.Faultless) (possible : after = some next) :
    changed choice state after = ({ ok := true, out := [] }, next) := by
  unfold changed
  rw [faultless, possible]

theorem changedWorld_faultless {choice : Choice} {state : State} {next : World}
    {after : Option World} (faultless : choice.Faultless) (possible : after = some next) :
    changedWorld choice state after = ({ ok := true, out := [] }, (state.1, next)) :=
  changed_faultless faultless (by rw [possible]; rfl)

theorem written_state (choice : Choice) (state : State) (words : Words) :
    (written choice state words).2 = state := by
  unfold written
  split <;> rfl

theorem changed_world {choice : Choice} {state : State} {after : Option State}
    (keeps : ∀ next, after = some next → next.2 = state.2) :
    (changed choice state after).2.2 = state.2 := by
  cases succeeded : (changed choice state after).1.ok with
  | true => exact keeps _ (changed_ok succeeded)
  | false => rw [changed_failed succeeded]

theorem cd_world (target : Directory) (choice : Choice) (state : State) :
    (exec (.cd target) choice state).2.2 = state.2 := by
  apply changed_world
  intro next reached
  split at reached
  · rw [← Option.some.inj reached]
  · cases reached

theorem cdInto_world (name : Name) (choice : Choice) (state : State) :
    (exec (.cdInto name) choice state).2.2 = state.2 := by
  apply changed_world
  intro next reached
  split at reached
  · split at reached
    · rw [← Option.some.inj reached]
    · cases reached
  · cases reached

end BuildLinux.Concrete.UsbCommands
