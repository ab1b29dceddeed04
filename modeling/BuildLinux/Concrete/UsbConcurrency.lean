/-
Any number of ums.sh processes at the same time.

Without a lock, enable can be overtaken between its test of the mount and its
write of `lun.0/file`, and disable between its write of `lun.0/file` and its
mount.  The image stays exclusive along every run in which no process mounts
while another is about to export, and none exports while another is about to
mount.
-/

import BuildLinux.ScriptPool
import BuildLinux.Concrete.UsbExclusivity

namespace BuildLinux.Concrete.UsbConcurrency

open CommandScript ScriptPool TransitionSystem
open UsbCommands (Command Choice Directory World Words exec)
open UsbScripts UsbExclusivity

abbrev UmsPool := Pool Command Words Directory World

def Started (pool : UmsPool) : Prop :=
  Exclusive pool.shared ∧ ∀ process ∈ pool.processes, ∃ request, process.script = ums request

/-- No process mounts the image while another is about to write `lun.0/file`,
and none writes the image there while another, having cleared it, is about to mount. -/
def Apart (mover other : UsbScript Unit) : Prop :=
  (mover = Script.run .mountUms → other ≠ Ums.exportImage) ∧
    (mover = Ums.exportImage → other ≠ Ums.mountImage ∧ other ≠ Script.run .mountUms)

/-! ### The points of ums.sh -/

inductive Point where
  | starting (request : Request)
  | creatingDirectory
  | testingFile
  | truncating
  | formatting
  | readingState
  | testingEnable
  | unmounting
  | exporting
  | clearing
  | testingDisable
  | mounting
  | ended
  | failed

def readState : UsbScript Unit :=
  (Script.output .usbState).bind Ums.follow

def Point.script : Point → UsbScript Unit
  | .starting request => ums request
  | .creatingDirectory => Ums.update
  | .testingFile => (Script.orElse .testFileUms Ums.createImage).bind fun _ => readState
  | .truncating => Ums.createImage.bind fun _ => readState
  | .formatting => (Script.run .mkfsUms).bind fun _ => readState
  | .readingState => readState
  | .testingEnable => Ums.enable
  | .unmounting => (Script.run .umountUms).bind fun _ => Ums.exportImage
  | .exporting => Ums.exportImage
  | .clearing => Ums.disable
  | .testingDisable => Ums.mountImage
  | .mounting => Script.run .mountUms
  | .ended => .done ()
  | .failed => .exit 1

def Point.command : Point → Option Command
  | .starting _ => some .startShell
  | .creatingDirectory => some .mkdirUms
  | .testingFile => some .testFileUms
  | .truncating => some .truncateUms
  | .formatting => some .mkfsUms
  | .readingState => some .usbState
  | .testingEnable => some .mountpointUms
  | .unmounting => some .umountUms
  | .exporting => some (.echoGadget Ums.usbGadget Ums.umsFile Ums.lunFile)
  | .clearing => some (.echoGadget Ums.usbGadget "" Ums.lunFile)
  | .testingDisable => some .mountpointUms
  | .mounting => some .mountUms
  | .ended => none
  | .failed => none

def Point.first : Request → Point
  | .enable => .testingEnable
  | .disable => .clearing
  | .update => .creatingDirectory

def Point.after (reply : Reply Words) : Point → Point
  | .starting request => Point.first request
  | .creatingDirectory => if reply.ok then .testingFile else .failed
  | .testingFile => if reply.ok then .readingState else .truncating
  | .truncating => if reply.ok then .formatting else .failed
  | .formatting => if reply.ok then .readingState else .failed
  | .readingState =>
      if UsbCommands.textOf reply.out = "CONFIGURED" then .testingEnable else .clearing
  | .testingEnable => if reply.ok then .unmounting else .exporting
  | .unmounting => if reply.ok then .exporting else .failed
  | .exporting => if reply.ok then .ended else .failed
  | .clearing => if reply.ok then .testingDisable else .failed
  | .testingDisable => if reply.ok then .ended else .mounting
  | .mounting => if reply.ok then .ended else .failed
  | .ended => .ended
  | .failed => .failed

def Point.assertion : Point → World → Prop
  | .exporting, world => ¬ Mounted world
  | .testingDisable, world => ¬ Exported world
  | .mounting, world => ¬ Exported world
  | _, _ => True

theorem Point.script_call {here : Point} {issued : Command}
    {next : Reply Words → UsbScript Unit} (call : here.script = .call issued next) :
    here.command = some issued ∧ ∀ reply, next reply = (here.after reply).script := by
  cases here with
  | starting request =>
      cases request with
      | enable =>
          cases call
          exact ⟨rfl, fun _ => rfl⟩
      | disable =>
          cases call
          exact ⟨rfl, fun _ => rfl⟩
      | update =>
          cases call
          exact ⟨rfl, fun _ => rfl⟩
  | readingState =>
      cases call
      refine ⟨rfl, fun reply => ?_⟩
      change Ums.follow reply.out = Point.script (if _ then _ else _)
      unfold Ums.follow
      split <;> rfl
  | ended => cases call
  | failed => cases call
  | _ =>
      cases call
      refine ⟨rfl, fun reply => ?_⟩
      rcases reply with ⟨ok, out⟩
      cases ok <;> rfl

/-! ### Steps -/

/-- A step that neither of the two facts depends on, to points without an assertion. -/
theorem neutral_moves (issued : Command) (here yes no : Point) (neutral : Neutral issued)
    (goesOn : ∀ reply, here.after reply = if reply.ok then yes else no)
    (freeYes : ∀ world, yes.assertion world) (freeNo : ∀ world, no.assertion world)
    (choice : Choice) {state : UsbCommands.State} (exclusive : Exclusive state.2) :
    Exclusive (exec issued choice state).2.2 ∧
      (here.after (exec issued choice state).1).assertion (exec issued choice state).2.2 := by
  refine ⟨(neutral_same neutral choice state).exclusive exclusive, ?_⟩
  rw [goesOn]
  split
  · exact freeYes _
  · exact freeNo _

/-- A step that changes nothing when it fails, and then ends the process. -/
theorem attempt_moves (issued : Command) (here yes : Point)
    (goesOn : ∀ reply, here.after reply = if reply.ok then yes else .failed)
    (clean : FailsCleanly exec issued) (choice : Choice) {state : UsbCommands.State}
    (exclusive : Exclusive state.2)
    (succeeds : (exec issued choice state).1.ok = true →
      Exclusive (exec issued choice state).2.2 ∧ yes.assertion (exec issued choice state).2.2) :
    Exclusive (exec issued choice state).2.2 ∧
      (here.after (exec issued choice state).1).assertion (exec issued choice state).2.2 := by
  rw [goesOn]
  cases succeeded : (exec issued choice state).1.ok with
  | true => exact succeeds succeeded
  | false =>
      rw [clean choice state succeeded]
      exact ⟨exclusive, trivial⟩

theorem Point.moves {here : Point} {issued : Command} (isNext : here.command = some issued)
    (choice : Choice) {state : UsbCommands.State} (exclusive : Exclusive state.2)
    (holds : here.assertion state.2) :
    Exclusive (exec issued choice state).2.2 ∧
      (here.after (exec issued choice state).1).assertion (exec issued choice state).2.2 := by
  cases here with
  | starting request =>
      cases isNext
      refine ⟨exclusive, ?_⟩
      cases request <;> trivial
  | creatingDirectory =>
      cases isNext
      exact neutral_moves .mkdirUms .creatingDirectory .testingFile .failed trivial
        (fun _ => rfl) (fun _ => trivial) (fun _ => trivial) choice exclusive
  | testingFile =>
      cases isNext
      exact neutral_moves .testFileUms .testingFile .readingState .truncating trivial
        (fun _ => rfl) (fun _ => trivial) (fun _ => trivial) choice exclusive
  | truncating =>
      cases isNext
      exact neutral_moves .truncateUms .truncating .formatting .failed trivial
        (fun _ => rfl) (fun _ => trivial) (fun _ => trivial) choice exclusive
  | formatting =>
      cases isNext
      exact neutral_moves .mkfsUms .formatting .readingState .failed trivial
        (fun _ => rfl) (fun _ => trivial) (fun _ => trivial) choice exclusive
  | readingState =>
      cases isNext
      have neutral : Neutral .usbState := trivial
      refine ⟨(neutral_same neutral choice state).exclusive exclusive, ?_⟩
      change (if _ then Point.testingEnable else Point.clearing).assertion _
      split <;> trivial
  | testingEnable =>
      cases isNext
      refine ⟨exclusive, ?_⟩
      change (if state.2.umsMounted then Point.unmounting else Point.exporting).assertion state.2
      cases mounted : state.2.umsMounted with
      | true => trivial
      | false => exact Bool.eq_false_iff.mp mounted
  | unmounting =>
      cases isNext
      apply attempt_moves .umountUms .unmounting .exporting (fun _ => rfl) umount_clean choice
        exclusive
      intro succeeded
      obtain ⟨unmounted, _⟩ := umount_ums succeeded
      exact ⟨exclusive_of_not_mounted unmounted, unmounted⟩
  | exporting =>
      cases isNext
      apply attempt_moves (.echoGadget Ums.usbGadget Ums.umsFile Ums.lunFile) .exporting .ended
        (fun _ => rfl) (echo_clean _) choice exclusive
      intro succeeded
      obtain ⟨_, sameMount⟩ := echo_lunFile succeeded
      refine ⟨exclusive_of_not_mounted ?_, trivial⟩
      rw [Mounted, sameMount]
      exact holds
  | clearing =>
      cases isNext
      apply attempt_moves (.echoGadget Ums.usbGadget "" Ums.lunFile) .clearing .testingDisable
        (fun _ => rfl) (echo_clean _) choice exclusive
      intro succeeded
      have absent := not_exported_of_cleared (echo_lunFile succeeded).1
      exact ⟨exclusive_of_not_exported absent, absent⟩
  | testingDisable =>
      cases isNext
      refine ⟨exclusive, ?_⟩
      change (if state.2.umsMounted then Point.ended else Point.mounting).assertion state.2
      split
      · trivial
      · exact holds
  | mounting =>
      cases isNext
      apply attempt_moves .mountUms .mounting .ended (fun _ => rfl) mount_clean choice exclusive
      intro succeeded
      obtain ⟨_, sameFile⟩ := mount_ums succeeded
      refine ⟨exclusive_of_not_exported ?_, trivial⟩
      rw [Exported, sameFile]
      exact holds
  | ended => cases isNext
  | failed => cases isNext

/-! ### Interference -/

/-- The commands that change one of the two facts, and where they are issued. -/
theorem neutral_or_changes {here : Point} {issued : Command}
    (isNext : here.command = some issued) :
    Neutral issued ∨ issued = .umountUms ∨ (here = .mounting ∧ issued = .mountUms) ∨
      ∃ value, issued = .echoGadget Ums.usbGadget value Ums.lunFile ∧
        (value = "" ∨ here = .exporting) := by
  cases here with
  | unmounting =>
      cases isNext
      exact Or.inr (Or.inl rfl)
  | mounting =>
      cases isNext
      exact Or.inr (Or.inr (Or.inl ⟨rfl, rfl⟩))
  | exporting =>
      cases isNext
      exact Or.inr (Or.inr (Or.inr ⟨_, rfl, Or.inr rfl⟩))
  | clearing =>
      cases isNext
      exact Or.inr (Or.inr (Or.inr ⟨_, rfl, Or.inl rfl⟩))
  | ended => cases isNext
  | failed => cases isNext
  | _ =>
      cases isNext
      exact Or.inl trivial

theorem attempt_keeps {issued : Command} {choice : Choice} {state : UsbCommands.State}
    (holds : World → Prop) (clean : FailsCleanly exec issued) (before : holds state.2)
    (succeeds : (exec issued choice state).1.ok = true → holds (exec issued choice state).2.2) :
    holds (exec issued choice state).2.2 := by
  cases succeeded : (exec issued choice state).1.ok with
  | true => exact succeeds succeeded
  | false =>
      rw [clean choice state succeeded]
      exact before

theorem keeps_unmounted {here : Point} {issued : Command} (isNext : here.command = some issued)
    (notMounting : here ≠ .mounting) (choice : Choice) {state : UsbCommands.State}
    (unmounted : ¬ Mounted state.2) : ¬ Mounted (exec issued choice state).2.2 := by
  rcases neutral_or_changes isNext with neutral | umount | mount | ⟨value, echo, _⟩
  · rw [Mounted, (neutral_same neutral choice state).2]
    exact unmounted
  · subst umount
    exact attempt_keeps (fun world => ¬ Mounted world) umount_clean unmounted
      fun succeeded => (umount_ums succeeded).1
  · exact absurd mount.1 notMounting
  · subst echo
    apply attempt_keeps (fun world => ¬ Mounted world) (echo_clean value) unmounted
    intro succeeded
    rw [Mounted, (echo_lunFile succeeded).2]
    exact unmounted

theorem keeps_not_exported {here : Point} {issued : Command}
    (isNext : here.command = some issued) (notExporting : here ≠ .exporting) (choice : Choice)
    {state : UsbCommands.State} (absent : ¬ Exported state.2) :
    ¬ Exported (exec issued choice state).2.2 := by
  rcases neutral_or_changes isNext with neutral | umount | ⟨_, mount⟩ | ⟨value, echo, cleared⟩
  · rw [Exported, (neutral_same neutral choice state).1]
    exact absent
  · subst umount
    apply attempt_keeps (fun world => ¬ Exported world) umount_clean absent
    intro succeeded
    rw [Exported, (umount_ums succeeded).2]
    exact absent
  · subst mount
    apply attempt_keeps (fun world => ¬ Exported world) mount_clean absent
    intro succeeded
    rw [Exported, (mount_ums succeeded).2]
    exact absent
  · subst echo
    have empty := cleared.resolve_right notExporting
    subst empty
    exact attempt_keeps (fun world => ¬ Exported world) (echo_clean "") absent
      fun succeeded => not_exported_of_cleared (echo_lunFile succeeded).1

theorem Point.undisturbed {here other : Point} {issued : Command}
    (isNext : here.command = some issued) (isApart : Apart here.script other.script)
    (choice : Choice) {state : UsbCommands.State} (holds : other.assertion state.2) :
    other.assertion (exec issued choice state).2.2 := by
  have notMounting (same : other = .exporting) : here ≠ .mounting := by
    intro mounting
    subst same mounting
    exact isApart.1 rfl rfl
  have notExporting (same : other = .testingDisable ∨ other = .mounting) : here ≠ .exporting := by
    intro exporting
    subst exporting
    rcases same with testing | mounting
    · subst testing
      exact (isApart.2 rfl).1 rfl
    · subst mounting
      exact (isApart.2 rfl).2 rfl
  cases other with
  | exporting => exact keeps_unmounted isNext (notMounting rfl) choice holds
  | testingDisable => exact keeps_not_exported isNext (notExporting (Or.inl rfl)) choice holds
  | mounting => exact keeps_not_exported isNext (notExporting (Or.inr rfl)) choice holds
  | _ => trivial

/-! ### Runs -/

def umsOutline : Outline exec Apart Exclusive where
  point := Point
  script := Point.script
  assertion := Point.assertion
  moves := by
    intro here issued next chosen own shared call exclusive holds
    obtain ⟨isNext, goesOn⟩ := Point.script_call call
    obtain ⟨kept, there⟩ := @Point.moves here issued isNext chosen (own, shared) exclusive holds
    exact ⟨kept, _, goesOn _, there⟩
  undisturbed := by
    intro here other issued next chosen own shared call _ isApart holds
    exact @Point.undisturbed here other issued (Point.script_call call).1 isApart chosen
      (own, shared) holds

/-- Along every run of any number of processes, taken apart, the image is never
both exported and mounted. -/
theorem ums_apart_exclusive {history : List (Nat × Choice)} {final : UmsPool}
    (run : Runs (apartInterleavings exec Started Apart) history final) :
    Exclusive final.shared := by
  refine (umsOutline.invariant ?_ run).1
  intro pool started
  refine ⟨started.1, ?_⟩
  intro process member
  obtain ⟨request, same⟩ := started.2 process member
  exact ⟨.starting request, same, trivial⟩

/-- Enable, from its test to its export, around a whole disable. -/
def overtaking : List (Nat × Choice) :=
  [(0, faultless), (0, faultless), (1, faultless), (1, faultless), (1, faultless), (1, faultless),
    (0, faultless)]

def enableAndDisable : UmsPool :=
  { processes := [{ script := ums .enable, own := .root }, { script := ums .disable, own := .root }]
    shared := exportedState.2 }

theorem enableAndDisable_started : Started enableAndDisable := by
  refine ⟨exportedState_exclusive, ?_⟩
  intro process member
  rcases List.mem_cons.mp member with first | second
  · exact ⟨.enable, congrArg Process.script first⟩
  · exact ⟨.disable, congrArg Process.script (List.mem_singleton.mp second)⟩

theorem enable_overtaken : ¬ ∀ history (final : UmsPool),
    Runs (interleavings exec Started) history final → Exclusive final.shared := by
  intro always
  obtain ⟨final, reached, both⟩ : ∃ final, enableAndDisable.steps exec overtaking = some final ∧
      Exported final.shared ∧ Mounted final.shared :=
    ⟨_, rfl, rfl, rfl⟩
  have starts : (interleavings exec Started).Initial enableAndDisable := enableAndDisable_started
  exact always _ final (Runs.steps (Runs.start starts) overtaking reached) both

/-- A process that has not begun, or is done. -/
def Resting (script : UsbScript Unit) : Prop := script = .done () ∨ ∃ request, script = ums request

theorem resting_apart (mover other : UsbScript Unit) (resting : Resting other) :
    Apart mover other := by
  rcases resting with rfl | ⟨request, rfl⟩
  · exact ⟨fun _ same => (nomatch same), fun _ => ⟨fun same => (nomatch same), fun same =>
      (nomatch same)⟩⟩
  · cases request <;> exact ⟨fun _ same => (nomatch same), fun _ => ⟨fun same => (nomatch same),
      fun same => (nomatch same)⟩⟩

def allRequests : UmsPool :=
  { processes := [.enable, .disable, .update].map fun request =>
      { script := ums request, own := .root }
    shared := exportedState.2 }

theorem allRequests_started : Started allRequests := by
  refine ⟨exportedState_exclusive, ?_⟩
  intro process member
  obtain ⟨request, _, same⟩ := List.mem_map.mp member
  exact ⟨request, (congrArg Process.script same).symm⟩

def turn (index commands : Nat) : List (Nat × Choice) :=
  (List.replicate commands faultless).map fun chosen => (index, chosen)

/-- Enable exports the image, disable takes it back and mounts it, and update unmounts and exports
it again, one after the other. -/
theorem ums_apart_exclusive_turns : ∃ exported mounted again : UmsPool,
    allRequests.steps exec (turn 0 3) = some exported ∧
      exported.steps exec (turn 1 4) = some mounted ∧
      mounted.steps exec (turn 2 7) = some again ∧
      (Exported exported.shared ∧ Exclusive exported.shared) ∧
      (Mounted mounted.shared ∧ Exclusive mounted.shared) ∧
      Exported again.shared ∧ Exclusive again.shared := by
  have starts : Runs (apartInterleavings exec Started Apart) [] allRequests :=
    Runs.start allRequests_started
  have othersWait : ∀ position other, position ≠ 0 →
      allRequests.processes[position]? = some other → Resting other.script := by
    intro position other differ found
    match position with
    | 0 => exact absurd rfl differ
    | 1 =>
        cases found
        exact Or.inr ⟨.disable, rfl⟩
    | 2 =>
        cases found
        exact Or.inr ⟨.update, rfl⟩
    | _ + 3 => cases found
  obtain ⟨_, exports⟩ := Runs.alone resting_apart 0 starts othersWait
    (List.replicate 3 faultless) rfl
  obtain ⟨_, mounts⟩ := Runs.alone resting_apart 1 exports (by
    intro position other differ found
    match position with
    | 0 =>
        cases found
        exact Or.inl rfl
    | 1 => exact absurd rfl differ
    | 2 =>
        cases found
        exact Or.inr ⟨.update, rfl⟩
    | _ + 3 => cases found) (List.replicate 4 faultless) rfl
  obtain ⟨_, exportsAgain⟩ := Runs.alone resting_apart 2 mounts (by
    intro position other differ found
    match position with
    | 0 =>
        cases found
        exact Or.inl rfl
    | 1 =>
        cases found
        exact Or.inl rfl
    | 2 => exact absurd rfl differ
    | _ + 3 => cases found) (List.replicate 7 faultless) rfl
  exact ⟨_, _, _, rfl, rfl, rfl, ⟨rfl, ums_apart_exclusive exports⟩,
    ⟨rfl, ums_apart_exclusive mounts⟩, rfl, ums_apart_exclusive exportsAgain⟩

/-! ### Overlapping steps -/

structure Ready (world : World) : Prop where
  directory : world.umsMountDir = true
  file : world.umsFile = true
  unmounted : world.umsMounted = false
  function : ∃ gadget, world.gadget Ums.usbGadget = some gadget ∧
    Ums.gadgetInstance ∈ gadget.functions

theorem exec_mount {world : World} (own : Directory) (directory : world.umsMountDir = true)
    (file : world.umsFile = true) (unmounted : world.umsMounted = false) :
    exec .mountUms faultless (own, world) =
      ({ ok := true, out := [] }, (own, { world with umsMounted := true })) := by
  apply UsbCommands.changedWorld_faultless faultless_faultless
  exact if_pos ⟨directory, file, unmounted⟩

theorem exec_export {world : World} (own : Directory)
    (function : ∃ gadget, world.gadget Ums.usbGadget = some gadget ∧
      Ums.gadgetInstance ∈ gadget.functions) :
    ∃ gadget, exec (.echoGadget Ums.usbGadget Ums.umsFile Ums.lunFile) faultless (own, world) =
        ({ ok := true, out := [] }, (own, world.setGadget Ums.usbGadget gadget)) ∧
      Exported (world.setGadget Ums.usbGadget gadget) := by
  obtain ⟨gadget, found, member⟩ := function
  have wrote : gadget.write Ums.umsFile Ums.lunFile = some { gadget with
      functions := gadget.functions.insert Ums.gadgetInstance Ums.umsFile } := if_pos member
  have changed : ((world.gadget Ums.usbGadget).bind fun gadget =>
      gadget.write Ums.umsFile Ums.lunFile).map (fun gadget =>
        world.setGadget Ums.usbGadget gadget) =
      some (world.setGadget Ums.usbGadget { gadget with
        functions := gadget.functions.insert Ums.gadgetInstance Ums.umsFile }) := by
    rw [found, Option.bind_some, wrote]
    rfl
  exact ⟨_, UsbCommands.changedWorld_faultless faultless_faultless changed,
    (write_lunFile changed).1⟩

theorem mount_then_export {pool : UmsPool} {index position : Nat} {own other : Directory}
    (differ : position ≠ index) (ready : Ready pool.shared)
    (mounts : pool.processes[index]? = some { script := Script.run .mountUms, own := own })
    (exports : pool.processes[position]? = some { script := Ums.exportImage, own := other }) :
    ∃ final, pool.steps exec [(index, faultless), (position, faultless)] = some final ∧
      ¬ Exclusive final.shared := by
  obtain ⟨middle, first, middleShared, _, others⟩ := step_call exec mounts faultless
  rw [exec_mount own ready.directory ready.file ready.unmounted] at middleShared
  rw [← others position differ] at exports
  obtain ⟨final, second, finalShared, _⟩ := step_call exec exports faultless
  have function : ∃ gadget, middle.shared.gadget Ums.usbGadget = some gadget ∧
      Ums.gadgetInstance ∈ gadget.functions := by
    rw [middleShared]
    exact ready.function
  obtain ⟨gadget, result, exported⟩ := exec_export other function
  rw [result] at finalShared
  refine ⟨final, ?_, fun exclusive => exclusive ⟨?_, ?_⟩⟩
  · rw [steps_cons first, steps_cons second]
    rfl
  · rw [finalShared]
    exact exported
  · rw [finalShared, middleShared]
    rfl

theorem mount_exported {pool : UmsPool} {position : Nat} {other : Directory}
    (directory : pool.shared.umsMountDir = true) (file : pool.shared.umsFile = true)
    (unmounted : pool.shared.umsMounted = false) (exported : Exported pool.shared)
    (mounts : pool.processes[position]? = some { script := Script.run .mountUms, own := other }) :
    ∃ final, pool.steps exec [(position, faultless)] = some final ∧ ¬ Exclusive final.shared := by
  obtain ⟨final, step, finalShared, _⟩ := step_call exec mounts faultless
  rw [exec_mount other directory file unmounted] at finalShared
  refine ⟨final, ?_, fun exclusive => exclusive ⟨?_, ?_⟩⟩
  · rw [steps_cons step]
    rfl
  · rw [finalShared]
    exact exported
  · rw [finalShared]
    rfl

theorem test_exported {pool : UmsPool} {position : Nat} {other : Directory}
    (directory : pool.shared.umsMountDir = true) (file : pool.shared.umsFile = true)
    (unmounted : pool.shared.umsMounted = false) (exported : Exported pool.shared)
    (tests : pool.processes[position]? = some { script := Ums.mountImage, own := other }) :
    ∃ final, pool.steps exec [(position, faultless), (position, faultless)] = some final ∧
      ¬ Exclusive final.shared := by
  obtain ⟨middle, step, middleShared, mounts, _⟩ := step_call exec tests faultless
  change middle.shared = pool.shared at middleShared
  change middle.processes[position]? = some
    { script := if pool.shared.umsMounted then .done () else Script.run .mountUms
      own := other } at mounts
  rw [unmounted] at mounts
  rw [steps_cons step]
  rw [← middleShared] at directory file unmounted exported
  exact mount_exported directory file unmounted exported mounts

/-- Any overlapping step that the kernel allows can end with the image exported
and mounted. -/
theorem overlap_breaks {pool : UmsPool} {index position : Nat}
    {mover other : Process Command Words Directory} (differ : position ≠ index)
    (ready : Ready pool.shared) (atIndex : pool.processes[index]? = some mover)
    (atPosition : pool.processes[position]? = some other)
    (overlap : ¬ Apart mover.script other.script) :
    ∃ acts final, pool.steps exec ((index, faultless) :: acts) = some final ∧
      ¬ Exclusive final.shared := by
  obtain ⟨moverScript, own⟩ := mover
  obtain ⟨otherScript, otherOwn⟩ := other
  rcases Classical.not_and_iff_not_or_not.mp overlap with mounting | exporting
  · obtain ⟨isMount, isExport⟩ := Classical.not_imp.mp mounting
    cases isMount
    cases Classical.not_not.mp isExport
    exact ⟨_, mount_then_export differ ready atIndex atPosition⟩
  · obtain ⟨isExport, mounts⟩ := Classical.not_imp.mp exporting
    cases isExport
    obtain ⟨middle, first, middleShared, _, others⟩ := step_call exec atIndex faultless
    obtain ⟨gadget, result, exported⟩ := exec_export own ready.function
    rw [result] at middleShared
    rw [← others position differ] at atPosition
    rw [← show middle.shared = pool.shared.setGadget Ums.usbGadget gadget from middleShared]
      at exported
    have directory : middle.shared.umsMountDir = true := by
      rw [middleShared]
      exact ready.directory
    have file : middle.shared.umsFile = true := by
      rw [middleShared]
      exact ready.file
    have unmounted : middle.shared.umsMounted = false := by
      rw [middleShared]
      exact ready.unmounted
    rcases Classical.not_and_iff_not_or_not.mp mounts with tests | mounts
    · cases Classical.not_not.mp tests
      obtain ⟨final, later, both⟩ := test_exported directory file unmounted exported atPosition
      exact ⟨_, final, (steps_cons first _).trans later, both⟩
    · cases Classical.not_not.mp mounts
      obtain ⟨final, later, both⟩ := mount_exported directory file unmounted exported atPosition
      exact ⟨_, final, (steps_cons first _).trans later, both⟩

end BuildLinux.Concrete.UsbConcurrency
