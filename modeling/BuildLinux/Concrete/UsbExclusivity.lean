/-
Exclusive use of the mass-storage image by one ums.sh process at a time.

The image is exported when `lun.0/file` of the function names it, and mounted
when it is mounted on `/userdata/ums`.  Each command of enable, disable and
update is described by what its success says about these two facts.
-/

import BuildLinux.Concrete.UsbScripts

namespace BuildLinux.Concrete.UsbExclusivity

open CommandScript
open UsbCommands (Command Choice State World Words exec changedWorld_ok changedWorld_failed
  written_state textOf)
open UsbGadget (Gadget)
open UsbScripts

/-- What `lun.0/file` reads, when the function exists. -/
def lunFile (world : World) : Option String :=
  (world.gadgets.lookup Ums.usbGadget).bind fun gadget =>
    gadget.functions.lookup Ums.gadgetInstance

def Exported (world : World) : Prop := lunFile world = some Ums.umsFile

def Mounted (world : World) : Prop := world.umsMounted = true

def Exclusive (world : World) : Prop := ¬ (Exported world ∧ Mounted world)

/-! ### What the commands say -/

def SameImage (before after : World) : Prop :=
  lunFile after = lunFile before ∧ after.umsMounted = before.umsMounted

theorem SameImage.refl (world : World) : SameImage world world := ⟨rfl, rfl⟩

theorem SameImage.exclusive {before after : World} (same : SameImage before after)
    (exclusive : Exclusive before) : Exclusive after := by
  rintro ⟨exported, mounted⟩
  exact exclusive ⟨same.1.symm.trans exported, same.2.symm.trans mounted⟩

theorem written_function {gadget after : Gadget} {value : String}
    (wrote : gadget.write value Ums.lunFile = some after) :
    Ums.gadgetInstance ∈ gadget.functions ∧
      after = { gadget with functions := gadget.functions.insert Ums.gadgetInstance value } := by
  change (if Ums.gadgetInstance ∈ gadget.functions then
    some { gadget with functions := gadget.functions.insert Ums.gadgetInstance value }
    else none) = some after at wrote
  split at wrote
  · cases wrote
    exact ⟨‹_›, rfl⟩
  · cases wrote

theorem write_lunFile {world after : World} {value : String}
    (changed : ((world.gadget Ums.usbGadget).bind fun gadget =>
      gadget.write value Ums.lunFile).map (fun gadget => world.setGadget Ums.usbGadget gadget) =
        some after) :
    lunFile after = some value ∧ after.umsMounted = world.umsMounted := by
  obtain ⟨next, found, same⟩ := Option.map_eq_some_iff.mp changed
  obtain ⟨gadget, _, wrote⟩ := Option.bind_eq_some_iff.mp found
  subst same
  obtain ⟨_, shape⟩ := written_function wrote
  subst shape
  refine ⟨?_, rfl⟩
  rw [lunFile, World.setGadget, AList.lookup_insert]
  exact AList.lookup_insert _

theorem echo_clean (value : String) :
    FailsCleanly exec (.echoGadget Ums.usbGadget value Ums.lunFile) :=
  fun _ _ => changedWorld_failed

theorem mount_clean : FailsCleanly exec .mountUms := fun _ _ => changedWorld_failed

theorem umount_clean : FailsCleanly exec .umountUms := fun _ _ => changedWorld_failed

theorem echo_lunFile {choice : Choice} {state : State} {value : String}
    (succeeded :
      (exec (.echoGadget Ums.usbGadget value Ums.lunFile) choice state).1.ok = true) :
    lunFile (exec (.echoGadget Ums.usbGadget value Ums.lunFile) choice state).2.2 = some value ∧
      (exec (.echoGadget Ums.usbGadget value Ums.lunFile) choice state).2.2.umsMounted =
        state.2.umsMounted := by
  obtain ⟨world, found, same⟩ := changedWorld_ok succeeded
  change (exec (.echoGadget Ums.usbGadget value Ums.lunFile) choice state).2 = _ at same
  rw [same]
  exact write_lunFile found

theorem echo_function {choice : Choice} {state : State} {value : String}
    (succeeded :
      (exec (.echoGadget Ums.usbGadget value Ums.lunFile) choice state).1.ok = true) :
    lunFile state.2 ≠ none := by
  obtain ⟨world, found, _⟩ := changedWorld_ok succeeded
  obtain ⟨next, wrote, _⟩ := Option.map_eq_some_iff.mp found
  obtain ⟨gadget, reached, wrote⟩ := Option.bind_eq_some_iff.mp wrote
  obtain ⟨member, _⟩ := written_function wrote
  rw [lunFile, (World.gadget_some reached).2]
  exact fun absent => (AList.lookup_eq_none.mp absent) member

theorem mount_ums {choice : Choice} {state : State}
    (succeeded : (exec .mountUms choice state).1.ok = true) :
    Mounted (exec .mountUms choice state).2.2 ∧
      lunFile (exec .mountUms choice state).2.2 = lunFile state.2 := by
  obtain ⟨world, found, same⟩ := changedWorld_ok succeeded
  change (exec .mountUms choice state).2 = _ at same
  obtain ⟨_, _, _, mounted⟩ := World.mountUms_some found
  rw [same, mounted]
  exact ⟨rfl, rfl⟩

theorem umount_ums {choice : Choice} {state : State}
    (succeeded : (exec .umountUms choice state).1.ok = true) :
    ¬ Mounted (exec .umountUms choice state).2.2 ∧
      lunFile (exec .umountUms choice state).2.2 = lunFile state.2 := by
  obtain ⟨world, found, same⟩ := changedWorld_ok succeeded
  change (exec .umountUms choice state).2 = _ at same
  obtain ⟨_, unmounted⟩ := World.umountUms_some found
  rw [same, unmounted]
  exact ⟨Bool.false_ne_true, rfl⟩

/-- The commands of ums.sh that touch neither of the two facts. -/
def Neutral : Command → Prop
  | .startShell | .mountpointUms | .mkdirUms | .testFileUms | .truncateUms | .mkfsUms | .usbState =>
      True
  | _ => False

theorem neutral_same {issued : Command} (neutral : Neutral issued) (choice : Choice)
    (state : State) : SameImage state.2 (exec issued choice state).2.2 := by
  cases issued with
  | startShell => exact SameImage.refl _
  | mountpointUms => exact SameImage.refl _
  | testFileUms => exact SameImage.refl _
  | usbState =>
      change SameImage state.2 (UsbCommands.written choice state _).2.2
      rw [written_state]
      exact SameImage.refl _
  | mkdirUms =>
      apply UsbCommands.changedWorld_keeps (SameImage state.2) (SameImage.refl _)
      intro world same
      cases same
      exact ⟨rfl, rfl⟩
  | truncateUms =>
      apply UsbCommands.changedWorld_keeps (SameImage state.2) (SameImage.refl _)
      intro world same
      cases same
      exact ⟨rfl, rfl⟩
  | mkfsUms =>
      apply UsbCommands.changedWorld_keeps (SameImage state.2) (SameImage.refl _)
      intro world same
      split at same
      · cases same
        exact SameImage.refl _
      · cases same
  | _ => exact neutral.elim

/-! ### enable, disable and update -/

inductive Request where
  | enable
  | disable
  | update
  deriving DecidableEq

def ums : Request → UsbScript Unit
  | .enable => process Ums.enable
  | .disable => process Ums.disable
  | .update => process Ums.update

def Achieved : Request → World → Prop
  | .enable, world => Exported world ∧ ¬ Mounted world
  | .disable, world => lunFile world = some "" ∧ Mounted world
  | .update, _ => True

/-- The image stays exclusive, and an exit status 0 tells that the request is achieved. -/
def Ends (request : Request) (exit : Exit Unit) (after : State) : Prop :=
  Exclusive after.2 ∧ (exit.status = 0 → Achieved request after.2)

/-- All commands leave the image exclusive, whichever of them fail. -/
abbrev Keeps (script : UsbScript Unit) (post : Exit Unit → State → Prop) (before : State) : Prop :=
  Ensures exec (fun _ => True) (fun reached => Exclusive reached.2) script post before

theorem exclusive_of_not_exported {world : World} (absent : ¬ Exported world) :
    Exclusive world :=
  fun both => absent both.1

theorem not_exported_of_cleared {world : World} (cleared : lunFile world = some "") :
    ¬ Exported world := by
  rw [Exported, cleared]
  decide

theorem exclusive_of_not_mounted {world : World} (absent : ¬ Mounted world) : Exclusive world :=
  fun both => absent both.2

theorem failed_ends {request : Request} {after : State} (exclusive : Exclusive after.2) :
    Ends request (.exited 1) after :=
  ⟨exclusive, fun impossible => absurd impossible Nat.one_ne_zero⟩

theorem exportImage_ends {before : State} (unmounted : ¬ Mounted before.2) :
    Keeps Ums.exportImage (Ends .enable) before := by
  apply Ensures.attempt (echo_clean _)
  · exact exclusive_of_not_mounted unmounted
  · intro choice _ succeeded
    obtain ⟨exported, sameMount⟩ := echo_lunFile succeeded
    have stillUnmounted : ¬ Mounted (exec (.echoGadget Ums.usbGadget Ums.umsFile Ums.lunFile)
        choice before).2.2 := by
      rw [Mounted, sameMount]
      exact unmounted
    exact ⟨exclusive_of_not_mounted stillUnmounted,
      exclusive_of_not_mounted stillUnmounted, fun _ => ⟨exported, stillUnmounted⟩⟩
  · exact failed_ends (exclusive_of_not_mounted unmounted)

theorem enable_ends {before : State} (exclusive : Exclusive before.2) :
    Keeps Ums.enable (Ends .enable) before := by
  apply Ensures.bind
  apply Ensures.ifOk
  · exact fun _ _ => exclusive
  · intro _ _ _
    apply Ensures.attempt umount_clean
    · exact exclusive
    · intro choice _ succeeded
      obtain ⟨unmounted, _⟩ := umount_ums succeeded
      exact ⟨exclusive_of_not_mounted unmounted, exportImage_ends unmounted⟩
    · exact failed_ends exclusive
  · intro choice _ unmounted
    exact exportImage_ends (Bool.eq_false_iff.mp unmounted)

theorem mountImage_ends {before : State} (cleared : lunFile before.2 = some "") :
    Keeps Ums.mountImage (Ends .disable) before := by
  apply Ensures.ifOk
  · exact fun _ _ => exclusive_of_not_exported (not_exported_of_cleared cleared)
  · intro _ _ mounted
    exact ⟨exclusive_of_not_exported (not_exported_of_cleared cleared), fun _ => ⟨cleared, mounted⟩⟩
  · intro _ _ _
    apply Ensures.attempt mount_clean
    · exact exclusive_of_not_exported (not_exported_of_cleared cleared)
    · intro choice _ succeeded
      obtain ⟨mounted, sameFile⟩ := mount_ums succeeded
      have exclusive := exclusive_of_not_exported (not_exported_of_cleared (sameFile.trans cleared))
      exact ⟨exclusive, exclusive, fun _ => ⟨sameFile.trans cleared, mounted⟩⟩
    · exact failed_ends (exclusive_of_not_exported (not_exported_of_cleared cleared))

theorem disable_ends {before : State} (exclusive : Exclusive before.2) :
    Keeps Ums.disable (Ends .disable) before := by
  apply Ensures.bind
  apply Ensures.attempt (echo_clean _)
  · exact exclusive
  · intro choice _ succeeded
    obtain ⟨cleared, _⟩ := echo_lunFile succeeded
    exact ⟨exclusive_of_not_exported (not_exported_of_cleared cleared), mountImage_ends cleared⟩
  · exact failed_ends exclusive

theorem neutral_keeps {script : UsbScript Unit} (neutral : script.Issues Neutral)
    {before : State} (exclusive : Exclusive before.2) :
    Keeps script (fun _ after => Exclusive after.2) before :=
  (Ensures.ofIssues (fun reached => Exclusive reached.2) neutral
    (fun _ choice reached isNeutral _ kept =>
      (neutral_same isNeutral choice reached).exclusive kept)
    (fun _ kept => kept) exclusive).mono fun _ _ ended => ended.2

theorem update_part {first : UsbScript Unit} {rest : Unit → UsbScript Unit} {before : State}
    (neutral : first.Issues Neutral) (exclusive : Exclusive before.2)
    (later : ∀ after : State, Exclusive after.2 → Keeps (rest ()) (Ends .update) after) :
    Keeps (first.bind rest) (Ends .update) before := by
  apply Ensures.bind
  apply (neutral_keeps neutral exclusive).mono
  intro exit after kept
  cases exit with
  | returned result => exact later after kept
  | exited status => exact ⟨kept, fun _ => trivial⟩

theorem createImage_neutral : Ums.createImage.Issues Neutral :=
  (Script.Issues.run trivial).bind fun _ => Script.Issues.run trivial

theorem follow_ends (usbState : Words) {before : State} (exclusive : Exclusive before.2) :
    Keeps (Ums.follow usbState) (Ends .update) before := by
  unfold Ums.follow
  split
  · exact (enable_ends exclusive).mono fun _ _ ended => ⟨ended.1, fun _ => trivial⟩
  · exact (disable_ends exclusive).mono fun _ _ ended => ⟨ended.1, fun _ => trivial⟩

theorem update_ends {before : State} (exclusive : Exclusive before.2) :
    Keeps Ums.update (Ends .update) before := by
  have mkdir : Neutral .mkdirUms := trivial
  have testFile : Neutral .testFileUms := trivial
  apply update_part (Script.Issues.run mkdir) exclusive
  intro created exclusiveCreated
  apply update_part (Script.Issues.orElse testFile createImage_neutral) exclusiveCreated
  intro formatted exclusiveFormatted choice _
  have readState : Neutral .usbState := trivial
  have same := neutral_same readState choice formatted
  exact ⟨same.exclusive exclusiveFormatted, follow_ends _ (same.exclusive exclusiveFormatted)⟩

theorem ums_ends (request : Request) {before : State} (exclusive : Exclusive before.2) :
    Keeps (ums request) (Ends request) before := by
  cases request with
  | enable => exact fun _ _ => ⟨exclusive, enable_ends exclusive⟩
  | disable => exact fun _ _ => ⟨exclusive, disable_ends exclusive⟩
  | update => exact fun _ _ => ⟨exclusive, update_ends exclusive⟩

/-- Any sequence of requests, with any faults, never has the image exported and
mounted at once, and enable and disable that exit 0 have done their work. -/
theorem ums_exclusive (session : List (Request × (Nat → Choice))) (initial : State)
    (exclusive : Exclusive initial.2) :
    (∀ reached ∈ sessionStates exec ums session initial, Exclusive reached.2) ∧
      ∀ completion ∈ completions exec ums session initial,
        completion.2.1 = 0 → Achieved completion.1 completion.2.2.2 := by
  exact session_ensures (fun _ _ => True) (fun reached => Exclusive reached.2)
    (fun reached => Exclusive reached.2)
    (fun request status after => status = 0 → Achieved request after.2)
    (fun request _ kept _ => ums_ends request kept) session exclusive
    (meets_always session initial)

def exportedState : State :=
  (.root,
    { configfsMount := true
      configfs := true
      gadgets := AList.singleton Ums.usbGadget
        { Gadget.created with functions := AList.singleton Ums.gadgetInstance Ums.umsFile }
      umsMountDir := true
      umsFile := true
      umsMounted := false
      hotplug := "/sbin/ums_hotplug.sh"
      usbConfig := "ums" })

theorem exportedState_exclusive : Exclusive exportedState.2 :=
  exclusive_of_not_mounted Bool.false_ne_true

def faultless : Choice := { fails := false, text := "CONFIGURED" }

theorem faultless_faultless : faultless.Faultless := rfl

theorem ums_exclusive_disable_update :
    (∀ reached ∈ sessionStates exec ums
          [(.disable, fun _ => faultless), (.update, fun _ => faultless)] exportedState,
        Exclusive reached.2) ∧
      ∀ completion ∈ completions exec ums
          [(.disable, fun _ => faultless), (.update, fun _ => faultless)] exportedState,
        completion.2.1 = 0 → Achieved completion.1 completion.2.2.2 :=
  ums_exclusive _ exportedState exportedState_exclusive

end BuildLinux.Concrete.UsbExclusivity
