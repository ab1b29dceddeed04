/-
The mode record of usb_mode.sh and the gadgets in configfs.

A view keeps which of the two gadgets exist, whether configfs is mounted and
what the record says.  Most commands leave the view alone, and the others change
one field of it, so the scripts are followed on views.  A session from a system
without gadgets keeps at most one gadget, and agrees with the record after each
success, when no gadget is stopped while the other one exists and the image is
only switched while the record reads "ums".
-/

import BuildLinux.Concrete.UsbExclusivity

namespace BuildLinux.Concrete.UsbModes

open CommandScript
open UsbGadget (Name Gadget GadgetCommand)
open UsbCommands (Command Choice Directory State World Words exec changedWorld_ok
  changedWorld_failed written_state)
open UsbScripts
open UsbExclusivity (lunFile)

/-! ### Views -/

structure View where
  ums : Bool
  acm : Bool
  mounted : Bool
  record : String

def view (world : World) : View :=
  { ums := Ums.usbGadget ∈ world.gadgets
    acm := Acm.usbGadget ∈ world.gadgets
    mounted := world.configfs
    record := world.usbConfig }

def View.put (seen : View) (name : Name) (present : Bool) : View :=
  { seen with
    ums := if name = Ums.usbGadget then present else seen.ums
    acm := if name = Acm.usbGadget then present else seen.acm }

theorem View.put_ums (seen : View) (name : Name) (present : Bool) :
    (seen.put name present).ums = if name = Ums.usbGadget then present else seen.ums :=
  rfl

theorem View.put_acm (seen : View) (name : Name) (present : Bool) :
    (seen.put name present).acm = if name = Acm.usbGadget then present else seen.acm :=
  rfl

def View.AtMostOne (seen : View) : Prop := ¬ (seen.ums = true ∧ seen.acm = true)

def View.Agree (seen : View) : Prop :=
  (seen.record = "ums" ↔ seen.ums = true) ∧ (seen.record = "acm" ↔ seen.acm = true) ∧
    (seen.record = "" ↔ seen.ums = false ∧ seen.acm = false)

/-- Between commands of usb_mode.sh a gadget only exists below a mount. -/
def View.Sound (seen : View) : Prop :=
  seen.AtMostOne ∧ (seen.ums = true ∨ seen.acm = true → seen.mounted = true)

/-! ### Commands on views -/

def Outer : Command → Prop
  | .mountConfigfs | .umountConfigfs | .mkdirGadget _ | .rmdirGadget _ | .echoUsbConfig _ => True
  | _ => False

def Inner : Command → Prop
  | .mountConfigfs | .umountConfigfs | .mkdirGadget _ | .rmdirGadget _ | .echoUsbConfig _ => False
  | _ => True

theorem view_congr {before after : World}
    (gadgets : ∀ name, name ∈ after.gadgets ↔ name ∈ before.gadgets)
    (configfs : after.configfs = before.configfs) (record : after.usbConfig = before.usbConfig) :
    view after = view before := by
  unfold view
  rw [configfs, record]
  simp only [gadgets]

theorem view_setGadget {world : World} {name : Name} (gadget : Gadget)
    (member : name ∈ world.gadgets) : view (world.setGadget name gadget) = view world := by
  refine view_congr ?_ rfl rfl
  intro other
  rw [World.setGadget, AList.mem_insert]
  constructor
  · rintro (same | present)
    · rw [same]
      exact member
    · exact present
  · exact Or.inr

theorem gadget_member {world : World} {name : Name} {gadget : Gadget}
    (found : world.gadget name = some gadget) : name ∈ world.gadgets := by
  rw [← AList.lookup_isSome, (World.gadget_some found).2]
  rfl

theorem view_put {world : World} {name : Name} {gadgets : UsbGadget.Listing Gadget}
    {present : Bool}
    (changed : ∀ other, other ∈ gadgets ↔
      if other = name then present = true else other ∈ world.gadgets) :
    view { world with gadgets := gadgets } = (view world).put name present := by
  unfold view View.put
  simp only [changed, @eq_comm _ name]
  congr 1
  · split <;> simp
  · split <;> simp

theorem changedGadget_view (choice : Choice) (state : State) (change : GadgetCommand) :
    view (UsbCommands.changedGadget choice state change).2.2 = view state.2 := by
  unfold UsbCommands.changedGadget
  split
  · rename_i name gadget _ current
    unfold UsbCommands.currentGadget at current
    split at current
    · obtain ⟨found, reached, same⟩ := Option.map_eq_some_iff.mp current
      cases same
      exact view_setGadget _ (gadget_member reached)
    · cases current
  · rfl

theorem changedWorld_view {choice : Choice} {state : State} {after : Option World}
    (keeps : ∀ world, after = some world → view world = view state.2) :
    view (UsbCommands.changedWorld choice state after).2.2 = view state.2 :=
  UsbCommands.changedWorld_keeps (fun world => view world = view state.2) rfl keeps

theorem written_view (choice : Choice) (state : State) (words : Words) :
    view (UsbCommands.written choice state words).2.2 = view state.2 := by
  rw [written_state]

theorem inner_view {issued : Command} (inner : Inner issued) (choice : Choice) (state : State) :
    view (exec issued choice state).2.2 = view state.2 := by
  cases issued with
  | mountConfigfs => exact inner.elim
  | umountConfigfs => exact inner.elim
  | mkdirGadget name => exact inner.elim
  | rmdirGadget name => exact inner.elim
  | echoUsbConfig value => exact inner.elim
  | inGadget change => exact changedGadget_view choice state change
  | echoGadget name value path =>
      apply changedWorld_view
      intro world changed
      obtain ⟨next, found, same⟩ := Option.map_eq_some_iff.mp changed
      obtain ⟨gadget, reached, _⟩ := Option.bind_eq_some_iff.mp found
      subst same
      exact view_setGadget next (gadget_member reached)
  | ls word => exact written_view choice state _
  | find word => exact written_view choice state _
  | serial => exact written_view choice state _
  | listUdc => exact written_view choice state _
  | usbState => exact written_view choice state _
  | cd target => rw [UsbCommands.cd_world]
  | cdInto name => rw [UsbCommands.cdInto_world]
  | umountUms =>
      apply changedWorld_view
      intro world reached
      rw [(World.umountUms_some reached).2]
      rfl
  | mountUms =>
      apply changedWorld_view
      intro world reached
      obtain ⟨_, _, _, mounted⟩ := World.mountUms_some reached
      rw [mounted]
      rfl
  | mkfsUms =>
      apply changedWorld_view
      intro world reached
      split at reached
      · cases reached
        rfl
      · cases reached
  | mkdirConfigfsMount =>
      apply changedWorld_view
      intro world reached
      cases reached
      rfl
  | mkdirUms =>
      apply changedWorld_view
      intro world reached
      cases reached
      rfl
  | truncateUms =>
      apply changedWorld_view
      intro world reached
      cases reached
      rfl
  | echoHotplug value =>
      apply changedWorld_view
      intro world reached
      cases reached
      rfl
  | _ => rfl

/-- What the success of a command that can change the view makes of it. -/
def View.after : Command → View → View
  | .mountConfigfs, seen => { seen with mounted := true }
  | .umountConfigfs, seen => { seen with mounted := false }
  | .mkdirGadget name, seen => seen.put name true
  | .rmdirGadget name, seen => seen.put name false
  | .echoUsbConfig value, seen => { seen with record := value }
  | _, seen => seen

theorem outer_clean {issued : Command} (outer : Outer issued) : FailsCleanly exec issued := by
  cases issued with
  | mountConfigfs => exact fun _ _ => changedWorld_failed
  | umountConfigfs => exact fun _ _ => changedWorld_failed
  | mkdirGadget name => exact fun _ _ => changedWorld_failed
  | rmdirGadget name => exact fun _ _ => changedWorld_failed
  | echoUsbConfig value => exact fun _ _ => changedWorld_failed
  | _ => exact outer.elim

theorem changedWorld_shows {choice : Choice} {state : State} {after : Option World} {seen : View}
    (succeeded : (UsbCommands.changedWorld choice state after).1.ok = true)
    (gives : ∀ world, after = some world → view world = seen) :
    view (UsbCommands.changedWorld choice state after).2.2 = seen := by
  obtain ⟨world, found, same⟩ := changedWorld_ok succeeded
  rw [same]
  exact gives world found

theorem outer_view {issued : Command} (outer : Outer issued) {choice : Choice} {state : State}
    (succeeded : (exec issued choice state).1.ok = true) :
    view (exec issued choice state).2.2 = (view state.2).after issued := by
  cases issued with
  | mountConfigfs =>
      apply changedWorld_shows succeeded
      intro world found
      obtain ⟨_, _, mounted⟩ := World.mountConfigfs_some found
      rw [mounted]
      rfl
  | umountConfigfs =>
      apply changedWorld_shows succeeded
      intro world found
      obtain ⟨_, _, unmounted⟩ := World.umountConfigfs_some found
      rw [unmounted]
      rfl
  | mkdirGadget name =>
      apply changedWorld_shows succeeded
      intro world found
      obtain ⟨_, _, _, made⟩ := World.mkdirGadget_some found
      rw [made]
      apply view_put
      intro other
      rw [AList.mem_insert]
      split <;> simp_all
  | rmdirGadget name =>
      apply changedWorld_shows succeeded
      intro world found
      rw [(World.rmdirGadget_some found).2]
      apply view_put
      intro other
      rw [AList.mem_erase]
      split <;> simp_all
  | echoUsbConfig value =>
      apply changedWorld_shows succeeded
      intro world found
      cases found
      rfl
  | _ => exact outer.elim

/-! ### Scripts on views -/

/-- Every state on the way has at most one of the gadgets, and the script ends
with this view. -/
abbrev Shows {value : Type} (script : UsbScript value) (post : Exit value → View → Prop)
    (before : State) : Prop :=
  Ensures exec (fun _ => True) (fun reached => (view reached.2).AtMostOne) script
    (fun exit after => post exit (view after.2)) before

theorem inner_shows {value : Type} {script : UsbScript value} (inner : script.Issues Inner)
    {before : State} (atMostOne : (view before.2).AtMostOne) :
    Shows script (fun exit seen => exit.FailsOnly ∧ seen = view before.2) before := by
  apply Ensures.ofIssues (fun reached : State => view reached.2 = view before.2) inner
  · intro issued choice reached isInner _ same
    rw [inner_view isInner, same]
  · intro reached same
    rw [same]
    exact atMostOne
  · rfl

/-- A first part that leaves the view alone. -/
theorem inner_then {value result : Type} {first : UsbScript value}
    {rest : value → UsbScript result} {post : Exit result → View → Prop}
    (inner : first.Issues Inner) {before : State} (atMostOne : (view before.2).AtMostOne)
    (failed : ∀ status, status ≠ 0 → post (.exited status) (view before.2))
    (later : ∀ value (after : State), view after.2 = view before.2 →
      Shows (rest value) post after) : Shows (first.bind rest) post before := by
  apply Ensures.bind
  apply (inner_shows inner atMostOne).mono
  intro exit after ended
  cases exit with
  | returned value => exact later value after ended.2
  | exited status =>
      change post (.exited status) (view after.2)
      rw [ended.2]
      exact failed status ended.1

theorem outer_run (issued : Command) (outer : Outer issued) {rest : Unit → UsbScript Unit}
    {post : Exit Unit → View → Prop} {before : State}
    (atMostOne : (view before.2).AtMostOne)
    (atMostOneAfter : ((view before.2).after issued).AtMostOne)
    (failed : post (.exited 1) (view before.2))
    (later : ∀ after : State, view after.2 = (view before.2).after issued →
      Shows (rest ()) post after) : Shows ((Script.run issued).bind rest) post before := by
  apply Ensures.bind
  apply Ensures.attempt (outer_clean outer) atMostOne
  · intro choice _ succeeded
    have changed := outer_view outer succeeded
    refine ⟨?_, later _ changed⟩
    rw [changed]
    exact atMostOneAfter
  · exact failed

/-- The view stays sound, and a success leaves this one. -/
def Leaves {value : Type} (good : View → Prop) (exit : Exit value) (seen : View) : Prop :=
  seen.Sound ∧ (exit.status = 0 → good seen)

theorem leaves_failed {value : Type} {good : View → Prop} {seen : View} (sound : seen.Sound)
    (status : Nat) (failed : status ≠ 0) :
    Leaves good (.exited status : Exit value) seen :=
  ⟨sound, fun succeeded => absurd succeeded failed⟩

/-! ### Starting -/

def View.Only (seen : View) (name : Name) : Prop :=
  seen.ums = decide (name = Ums.usbGadget) ∧ seen.acm = decide (name = Acm.usbGadget)

def View.Empty (seen : View) : Prop := seen.ums = false ∧ seen.acm = false

theorem View.Empty.atMostOne {seen : View} (empty : seen.Empty) : seen.AtMostOne :=
  fun both => Bool.false_ne_true (empty.1.symm.trans both.1)

theorem View.Empty.sound {seen : View} (empty : seen.Empty) : seen.Sound := by
  refine ⟨empty.atMostOne, ?_⟩
  rintro (ums | acm)
  · exact absurd (empty.1.symm.trans ums) Bool.false_ne_true
  · exact absurd (empty.2.symm.trans acm) Bool.false_ne_true

theorem View.Only.atMostOne {seen : View} {name : Name} (only : seen.Only name) :
    seen.AtMostOne := by
  rintro ⟨ums, acm⟩
  rw [only.1, decide_eq_true_iff] at ums
  rw [only.2, decide_eq_true_iff, ums] at acm
  revert acm
  decide

theorem View.Empty.put {seen : View} (empty : seen.Empty) (name : Name) :
    (seen.put name true).Only name := by
  unfold View.Only View.put
  rw [empty.1, empty.2]
  constructor <;> split <;> simp_all

/-- An unmounted configfs stands for no gadgets. -/
theorem View.Sound.empty {seen : View} (sound : seen.Sound) (unmounted : seen.mounted = false) :
    seen.Empty := by
  constructor
  · apply Bool.eq_false_iff.mpr
    intro ums
    exact Bool.false_ne_true (unmounted.symm.trans (sound.2 (Or.inl ums)))
  · apply Bool.eq_false_iff.mpr
    intro acm
    exact Bool.false_ne_true (unmounted.symm.trans (sound.2 (Or.inr acm)))

theorem create_shows (name : Name) {body : String → UsbScript Unit}
    (inner : ∀ serial, (body serial).Issues Inner) {before : State}
    (sound : (view before.2).Sound) :
    Shows (create name body) (Leaves fun seen => seen.Only name) before := by
  apply inner_then (Script.Issues.orElse (by trivial) (Script.Issues.run (by trivial))) sound.1
    (leaves_failed sound)
  intro _ directory sameDirectory
  rw [← sameDirectory] at sound
  apply Ensures.bind
  apply Ensures.ifOk
  · exact fun _ _ => sound.1
  · intro _ _ _
    change Leaves (fun seen => seen.Only name) (.exited 1 : Exit Unit) (view directory.2)
    exact leaves_failed sound 1 Nat.one_ne_zero
  intro choice _ unmounted
  have empty : (view directory.2).Empty := sound.empty unmounted
  apply inner_then (Script.Issues.output (by trivial)) empty.atMostOne (leaves_failed sound)
  intro serial read sameRead
  rw [← sameRead] at empty sound
  apply outer_run .mountConfigfs trivial empty.atMostOne empty.atMostOne
    (leaves_failed sound 1 Nat.one_ne_zero)
  intro mounted viewMounted
  have emptyMounted : (view mounted.2).Empty := by
    rw [viewMounted]
    exact empty
  apply inner_then (Script.Issues.run (by trivial)) emptyMounted.atMostOne
    (leaves_failed emptyMounted.sound)
  intro _ inside sameInside
  rw [← sameInside] at viewMounted emptyMounted
  have only := emptyMounted.put name
  apply outer_run (.mkdirGadget name) trivial emptyMounted.atMostOne only.atMostOne
    (leaves_failed emptyMounted.sound 1 Nat.one_ne_zero)
  intro made viewMade
  -- From here on the gadget exists, whatever fails later.
  have onlyMade : (view made.2).Only name := by
    rw [viewMade]
    exact only
  have soundMade : (view made.2).Sound := by
    refine ⟨onlyMade.atMostOne, fun _ => ?_⟩
    rw [viewMade]
    change (view inside.2).mounted = true
    rw [viewMounted]
    rfl
  apply inner_then (Script.Issues.run (by trivial)) onlyMade.atMostOne (leaves_failed soundMade)
  intro _ current sameCurrent
  rw [← sameCurrent] at onlyMade soundMade
  apply (inner_shows (inner _) onlyMade.atMostOne).mono
  intro exit final ended
  rw [ended.2]
  exact ⟨soundMade, fun _ => onlyMade⟩

/-! ### Stopping -/

def View.NoOther (seen : View) (name : Name) : Prop := (seen.put name false).Empty

theorem absent_empty {world : World} {name : Name} (sound : (view world).Sound)
    (noOther : (view world).NoOther name) (absent : (world.gadget name).isSome = false) :
    (view world).Empty := by
  unfold World.gadget at absent
  split at absent
  · have notMember : name ∉ world.gadgets := by
      rw [← AList.lookup_isSome, absent]
      exact Bool.false_ne_true
    have same : (view world).put name false = view world := by
      unfold View.put view
      congr 1
      · split
        · rename_i isUms
          rw [← isUms, decide_eq_false notMember]
        · rfl
      · split
        · rename_i isAcm
          rw [← isAcm, decide_eq_false notMember]
        · rfl
    rw [View.NoOther, same] at noOther
    exact noOther
  · exact sound.empty (Bool.eq_false_iff.mpr ‹_›)

theorem removeConfig_inner (cfg : UsbGadget.Path) : (removeConfig cfg).Issues Inner := by
  refine (Script.Issues.output (by trivial)).bind fun functions => ?_
  refine (Script.Issues.each _ fun _ _ => Script.Issues.run (by trivial)).bind fun _ => ?_
  refine (Script.Issues.output (by trivial)).bind fun strings => ?_
  refine (Script.Issues.each _ fun _ _ => Script.Issues.run (by trivial)).bind fun _ => ?_
  exact Script.Issues.run (by trivial)

theorem removeItems_inner : removeItems.Issues Inner := by
  refine (Script.Issues.output (by trivial)).bind fun configs => ?_
  refine (Script.Issues.each _ fun _ _ => removeConfig_inner _).bind fun _ => ?_
  refine (Script.Issues.output (by trivial)).bind fun functions => ?_
  refine (Script.Issues.each _ fun _ _ => Script.Issues.run (by trivial)).bind fun _ => ?_
  refine (Script.Issues.output (by trivial)).bind fun strings => ?_
  exact Script.Issues.each _ fun _ _ => Script.Issues.run (by trivial)

theorem umount_shows {before : State} (empty : (view before.2).Empty) :
    Shows (Script.run .umountConfigfs) (Leaves View.Empty) before := by
  have outer : Outer .umountConfigfs := trivial
  apply Ensures.attempt (outer_clean outer) empty.atMostOne
  · intro choice _ succeeded
    have emptyAfter : (view (exec .umountConfigfs choice before).2.2).Empty := by
      rw [outer_view outer succeeded]
      exact empty
    exact ⟨emptyAfter.atMostOne, emptyAfter.sound, fun _ => emptyAfter⟩
  · exact leaves_failed empty.sound 1 Nat.one_ne_zero

theorem removeGadget_shows (name : Name) {before : State} (sound : (view before.2).Sound)
    (noOther : (view before.2).NoOther name) :
    Shows (removeGadget name) (Leaves View.Empty) before := by
  apply inner_then (Script.Issues.run (by trivial)) sound.1 (leaves_failed sound)
  intro _ outside same
  rw [← same] at sound noOther
  apply outer_run (.rmdirGadget name) trivial sound.1 noOther.atMostOne
    (leaves_failed sound 1 Nat.one_ne_zero)
  intro removed viewRemoved
  have empty : (view removed.2).Empty := by
    rw [viewRemoved]
    exact noOther
  exact umount_shows empty

theorem stopGadget_shows (name : Name) {first : UsbScript Unit} (inner : first.Issues Inner)
    {before : State} (sound : (view before.2).Sound) (noOther : (view before.2).NoOther name) :
    Shows (stopGadget name first) (Leaves View.Empty) before := by
  apply Ensures.ifOk
  · exact fun _ _ => sound.1
  · intro _ _ _
    apply inner_then (Script.Issues.run (by trivial)) sound.1 (leaves_failed sound)
    intro _ inside sameInside
    rw [← sameInside] at sound noOther
    apply inner_then inner sound.1 (leaves_failed sound)
    intro _ cleared sameCleared
    rw [← sameCleared] at sound noOther
    apply inner_then removeItems_inner sound.1 (leaves_failed sound)
    intro _ bare sameBare
    rw [← sameBare] at sound noOther
    exact removeGadget_shows name sound noOther
  · intro _ _ absent
    have empty := absent_empty sound noOther absent
    apply Ensures.ifOk
    · exact fun _ _ => sound.1
    · exact fun _ _ _ => umount_shows empty
    · exact fun _ _ _ => ⟨empty.sound, fun _ => empty⟩

/-! ### The other functions of ums.sh and acm.sh -/

theorem inGadget_inner (changes : List GadgetCommand) : (inGadget changes).Issues Inner :=
  Script.Issues.each changes fun _ _ => Script.Issues.run (by trivial)

theorem removeDescs_inner : Ums.removeDescs.Issues Inner :=
  (Script.Issues.output (by trivial)).bind fun _ =>
    Script.Issues.each _ fun _ _ => Script.Issues.run (by trivial)

theorem umsBind_inner : Ums.bind.Issues Inner :=
  (Script.Issues.output (by trivial)).bind fun _ => Script.Issues.run (by trivial)

theorem acmBind_inner : Acm.bind.Issues Inner := by
  refine (Script.Issues.output (by trivial)).bind fun udc => ?_
  split
  · exact Nat.one_ne_zero
  · exact Script.Issues.run (by trivial)

theorem enable_inner : Ums.enable.Issues Inner :=
  (Script.Issues.andThen (by trivial) (Script.Issues.run (by trivial))).bind fun _ =>
    Script.Issues.run (by trivial)

theorem mountImage_inner : Ums.mountImage.Issues Inner :=
  Script.Issues.orElse (by trivial) (Script.Issues.run (by trivial))

theorem disable_inner : Ums.disable.Issues Inner :=
  (Script.Issues.run (by trivial)).bind fun _ => mountImage_inner

theorem update_inner : Ums.update.Issues Inner := by
  refine (Script.Issues.run (by trivial)).bind fun _ => ?_
  refine (Script.Issues.orElse (by trivial) ?_).bind fun _ => ?_
  · exact (Script.Issues.run (by trivial)).bind fun _ => Script.Issues.run (by trivial)
  refine (Script.Issues.output (by trivial)).bind fun usbState => ?_
  change (if _ then Ums.enable else Ums.disable).Issues Inner
  split
  · exact enable_inner
  · exact disable_inner

def Switched (origin : World) (exit : Exit Unit) (after : State) : Prop :=
  view after.2 = view origin ∧ (exit.status = 0 → lunFile origin ≠ none)

theorem echo_switches (value : String) {before : State} {origin : World}
    (atMostOne : (view origin).AtMostOne) (sameView : view before.2 = view origin)
    (sameFile : lunFile before.2 = lunFile origin) :
    Ensures exec (fun _ => True) (fun reached => (view reached.2).AtMostOne)
      (Script.run (.echoGadget Ums.usbGadget value Ums.lunFile)) (Switched origin) before := by
  have inner : Inner (.echoGadget Ums.usbGadget value Ums.lunFile) := trivial
  rw [← sameView] at atMostOne
  apply Ensures.attempt (UsbExclusivity.echo_clean value) atMostOne
  · intro choice _ succeeded
    have same := inner_view inner choice before
    have atMostOneAfter := atMostOne
    rw [← same] at atMostOneAfter
    refine ⟨atMostOneAfter, same.trans sameView, fun _ => ?_⟩
    rw [← sameFile]
    exact UsbExclusivity.echo_function succeeded
  · exact ⟨sameView, fun impossible => absurd impossible Nat.one_ne_zero⟩

theorem enable_switches {before : State} (atMostOne : (view before.2).AtMostOne) :
    Ensures exec (fun _ => True) (fun reached => (view reached.2).AtMostOne) Ums.enable
      (Switched before.2) before := by
  apply Ensures.bind
  apply Ensures.ifOk
  · exact fun _ _ => atMostOne
  · intro _ _ _
    apply Ensures.attempt UsbExclusivity.umount_clean atMostOne
    · intro choice _ succeeded
      have inner : Inner .umountUms := trivial
      have same := inner_view inner choice before
      have atMostOneAfter := atMostOne
      rw [← same] at atMostOneAfter
      exact ⟨atMostOneAfter,
        echo_switches _ atMostOne same (UsbExclusivity.umount_ums succeeded).2⟩
    · exact ⟨rfl, fun impossible => absurd impossible Nat.one_ne_zero⟩
  · exact fun _ _ _ => echo_switches _ atMostOne rfl rfl

theorem disable_switches {before : State} (atMostOne : (view before.2).AtMostOne) :
    Ensures exec (fun _ => True) (fun reached => (view reached.2).AtMostOne) Ums.disable
      (Switched before.2) before := by
  apply Ensures.bind
  apply (echo_switches "" atMostOne rfl rfl).mono
  intro exit cleared switched
  cases exit with
  | returned _ =>
      have atMostOneCleared := atMostOne
      rw [← switched.1] at atMostOneCleared
      apply (inner_shows mountImage_inner atMostOneCleared).mono
      intro exit after ended
      exact ⟨ended.2.trans switched.1, fun _ => switched.2 rfl⟩
  | exited status => exact switched

/-! ### usb_mode.sh -/

theorem runScript_inner {script : UsbScript Unit} (inner : script.Issues Inner) :
    (runScript script).Issues Inner := by
  have started : (process script).Issues Inner := ⟨trivial, fun _ => inner⟩
  refine started.child.bind fun status => ?_
  split
  · trivial
  · exact Nat.one_ne_zero

theorem runScript_ensures {script : UsbScript Unit} {post : Exit Unit → State → Prop}
    {before : State} (atMostOne : (view before.2).AtMostOne)
    (ensured : Ensures exec (fun _ => True) (fun reached => (view reached.2).AtMostOne) script
      (fun exit after => post (if exit.status = 0 then .returned () else .exited 1) after)
      (.root, before.2)) :
    Ensures exec (fun _ => True) (fun reached => (view reached.2).AtMostOne) (runScript script)
      post before := by
  apply Ensures.bind
  apply Ensures.child
  intro choice _
  refine ⟨atMostOne, ensured.mono ?_⟩
  intro exit after ended
  change Ensures exec _ _ (if exit.status = 0 then Script.done () else Script.exit 1) post after
  split
  · rw [if_pos ‹_›] at ended
    exact ended
  · rw [if_neg ‹_›] at ended
    exact ended

theorem runScript_then {script : UsbScript Unit} {rest : Unit → UsbScript Unit}
    {good final : View → Prop} {before : State} (sound : (view before.2).Sound)
    (shown : Shows script (Leaves good) (.root, before.2))
    (later : ∀ after : State, (view after.2).Sound → good (view after.2) →
      Shows (rest ()) (Leaves final) after) :
    Shows ((runScript script).bind rest) (Leaves final) before := by
  apply Ensures.bind
  apply runScript_ensures sound.1
  apply shown.mono
  intro exit after left
  split
  · exact later after left.1 (left.2 ‹_›)
  · exact leaves_failed left.1 1 Nat.one_ne_zero

theorem record_shows (value : String) {before : State} (sound : (view before.2).Sound)
    (agree : ({ view before.2 with record := value } : View).Agree) :
    Shows (Script.run (.echoUsbConfig value)) (Leaves View.Agree) before := by
  have outer : Outer (.echoUsbConfig value) := trivial
  apply Ensures.attempt (outer_clean outer) sound.1
  · intro choice _ succeeded
    have changed := outer_view outer succeeded
    have soundAfter : (view (exec (.echoUsbConfig value) choice before).2.2).Sound := by
      rw [changed]
      exact sound
    refine ⟨soundAfter.1, soundAfter, fun _ => ?_⟩
    rw [changed]
    exact agree
  · exact leaves_failed sound 1 Nat.one_ne_zero

theorem View.Only.agreeUms {seen : View} (only : seen.Only Ums.usbGadget) :
    ({ seen with record := "ums" } : View).Agree := by
  unfold View.Agree
  rw [only.1, only.2]
  dsimp only
  decide

theorem View.Only.agreeAcm {seen : View} (only : seen.Only Acm.usbGadget) :
    ({ seen with record := "acm" } : View).Agree := by
  unfold View.Agree
  rw [only.1, only.2]
  dsimp only
  decide

theorem View.Empty.agree {seen : View} (empty : seen.Empty) :
    ({ seen with record := "" } : View).Agree := by
  unfold View.Agree
  rw [empty.1, empty.2]
  dsimp only
  decide

theorem umsEn_shows {before : State} (sound : (view before.2).Sound) :
    Shows umsEn (Leaves View.Agree) before := by
  apply runScript_then sound (create_shows Ums.usbGadget (fun _ => inGadget_inner _) sound)
  intro started soundStarted only
  apply inner_then (runScript_inner umsBind_inner) soundStarted.1 (leaves_failed soundStarted)
  intro _ bound sameBound
  rw [← sameBound] at soundStarted only
  apply inner_then (Script.Issues.test (by trivial)) soundStarted.1 (leaves_failed soundStarted)
  intro _ hooked sameHooked
  rw [← sameHooked] at soundStarted only
  apply inner_then (runScript_inner update_inner) soundStarted.1 (leaves_failed soundStarted)
  intro _ updated sameUpdated
  rw [← sameUpdated] at soundStarted only
  exact record_shows "ums" soundStarted only.agreeUms

theorem acmEn_shows {before : State} (sound : (view before.2).Sound) :
    Shows acmEn (Leaves View.Agree) before := by
  apply runScript_then sound (create_shows Acm.usbGadget (fun _ => inGadget_inner _) sound)
  intro started soundStarted only
  apply inner_then (runScript_inner acmBind_inner) soundStarted.1 (leaves_failed soundStarted)
  intro _ bound sameBound
  rw [← sameBound] at soundStarted only
  exact record_shows "acm" soundStarted only.agreeAcm

theorem stop_shows (name : Name) {first : UsbScript Unit} (inner : first.Issues Inner)
    {before : State} (sound : (view before.2).Sound) (noOther : (view before.2).NoOther name) :
    Shows ((runScript (stopGadget name first)).bind fun _ => Script.run (.echoUsbConfig ""))
      (Leaves View.Agree) before := by
  apply runScript_then sound (stopGadget_shows name inner sound noOther)
  intro stopped soundStopped empty
  exact record_shows "" soundStopped empty.agree

theorem ums_of_lunFile {world : World} (function : lunFile world ≠ none) :
    (view world).ums = true := by
  apply decide_eq_true
  by_contra absent
  apply function
  rw [lunFile, AList.lookup_eq_none.mpr absent]
  rfl

theorem View.AtMostOne.only {seen : View} (atMostOne : seen.AtMostOne) (ums : seen.ums = true) :
    seen.Only Ums.usbGadget :=
  ⟨ums, Bool.eq_false_iff.mpr fun acm => atMostOne ⟨ums, acm⟩⟩

theorem switch_shows {script : UsbScript Unit} {before : State} (sound : (view before.2).Sound)
    (recorded : before.2.usbConfig = "ums" ∨ lunFile before.2 = none)
    (switches : Ensures exec (fun _ => True) (fun reached => (view reached.2).AtMostOne) script
      (Switched before.2) (.root, before.2)) :
    Shows (runScript script) (Leaves View.Agree) before := by
  apply runScript_ensures sound.1
  apply switches.mono
  intro exit after switched
  rw [switched.1]
  refine ⟨sound, fun succeeded => ?_⟩
  have exited : exit.status = 0 := by
    by_contra failed
    rw [if_neg failed] at succeeded
    exact Nat.one_ne_zero succeeded
  have function := switched.2 exited
  have record : (view before.2).record = "ums" := recorded.resolve_right function
  have agree := (sound.1.only (ums_of_lunFile function)).agreeUms
  rw [← record] at agree
  exact agree

/-! ### Sessions -/

/-- No gadget is stopped while the other one exists, and the image is switched
only while the record reads "ums" or there is no `lun.0/file`. -/
def Undisturbed : Mode → State → Prop
  | .umsEn, _ => True
  | .acmEn, _ => True
  | .umsStop, state => Acm.usbGadget ∉ state.2.gadgets
  | .acmStop, state => Ums.usbGadget ∉ state.2.gadgets
  | .umsEnable, state => state.2.usbConfig = "ums" ∨ lunFile state.2 = none
  | .umsDisable, state => state.2.usbConfig = "ums" ∨ lunFile state.2 = none

theorem noOther_ums {seen : View} (absent : seen.acm = false) : seen.NoOther Ums.usbGadget := by
  have differ : Ums.usbGadget ≠ Acm.usbGadget := by decide
  constructor
  · rw [View.put_ums, if_pos rfl]
  · rw [View.put_acm, if_neg differ, absent]

theorem noOther_acm {seen : View} (absent : seen.ums = false) : seen.NoOther Acm.usbGadget := by
  have differ : Acm.usbGadget ≠ Ums.usbGadget := by decide
  constructor
  · rw [View.put_ums, if_neg differ, absent]
  · rw [View.put_acm, if_pos rfl]

theorem usbMode_shows (mode : Mode) {before : State} (sound : (view before.2).Sound)
    (undisturbed : Undisturbed mode before) :
    Shows (usbMode mode) (Leaves View.Agree) before := by
  cases mode with
  | umsEn => exact umsEn_shows sound
  | acmEn => exact acmEn_shows sound
  | umsEnable => exact switch_shows sound undisturbed (enable_switches sound.1)
  | umsDisable => exact switch_shows sound undisturbed (disable_switches sound.1)
  | umsStop =>
      exact stop_shows Ums.usbGadget removeDescs_inner sound
        (noOther_ums (decide_eq_false undisturbed))
  | acmStop =>
      have nothing : (Script.done () : UsbScript Unit).Issues Inner := trivial
      exact stop_shows Acm.usbGadget nothing sound (noOther_acm (decide_eq_false undisturbed))

def Booted (state : State) : Prop :=
  state.2.gadgets = ∅ ∧ state.2.usbConfig = ""

/-- In a session from boot whose requests are undisturbed there is at most one
gadget in every state, and the record names it after every success. -/
theorem usbMode_agrees (session : List (Mode × (Nat → Choice))) (initial : State)
    (booted : Booted initial) (undisturbed : Meets exec usbMode Undisturbed session initial) :
    (∀ reached ∈ sessionStates exec usbMode session initial, (view reached.2).AtMostOne) ∧
      ∀ completion ∈ completions exec usbMode session initial,
        completion.2.1 = 0 → (view completion.2.2.2).Agree := by
  have empty : (view initial.2).Empty := by
    constructor
    · apply decide_eq_false
      rw [booted.1]
      exact AList.notMem_empty _
    · apply decide_eq_false
      rw [booted.1]
      exact AList.notMem_empty _
  exact session_ensures Undisturbed (fun reached => (view reached.2).Sound)
    (fun reached => (view reached.2).AtMostOne)
    (fun _ status after => status = 0 → (view after.2).Agree)
    (fun mode before sound isUndisturbed => usbMode_shows mode sound isUndisturbed) session
    empty.sound undisturbed

def bootState : State :=
  (.root,
    { configfsMount := true
      configfs := false
      gadgets := ∅
      umsMountDir := false
      umsFile := false
      umsMounted := false
      hotplug := ""
      usbConfig := "" })

theorem bootState_booted : Booted bootState := ⟨rfl, rfl⟩

def noFaults (modes : List Mode) : List (Mode × (Nat → Choice)) :=
  modes.map fun mode => (mode, fun _ => UsbExclusivity.faultless)

theorem usbMode_agrees_switching :
    (∀ reached ∈ sessionStates exec usbMode (noFaults [.umsEn, .umsDisable, .umsStop, .acmEn])
        bootState, (view reached.2).AtMostOne) ∧
      ∀ completion ∈ completions exec usbMode (noFaults [.umsEn, .umsDisable, .umsStop, .acmEn])
          bootState, completion.2.1 = 0 → (view completion.2.2.2).Agree := by
  apply usbMode_agrees _ _ bootState_booted
  refine ⟨trivial, Or.inl ?_, ?_, trivial, trivial⟩
  · rfl
  · change Acm.usbGadget ∉ _
    decide +kernel

/-- Stopping the gadget that is not running clears the record of the other one,
and lets its own gadget be created beside it. -/
theorem acmStop_disturbs :
    (∃ reached ∈ sessionStates exec usbMode (noFaults [.umsEn, .acmStop, .acmEn]) bootState,
        ¬ (view reached.2).AtMostOne) ∧
      ∃ completion ∈ completions exec usbMode (noFaults [.umsEn, .acmStop, .acmEn]) bootState,
        completion.2.1 = 0 ∧ ¬ (view completion.2.2.2).Agree := by
  constructor
  · have found : (sessionStates exec usbMode (noFaults [.umsEn, .acmStop, .acmEn])
        bootState).any (fun reached => (view reached.2).ums && (view reached.2).acm) = true := by
      decide +kernel
    obtain ⟨reached, member, both⟩ := List.any_eq_true.mp found
    rw [Bool.and_eq_true] at both
    exact ⟨reached, member, fun atMostOne => atMostOne both⟩
  · refine ⟨_, List.mem_cons_of_mem _ List.mem_cons_self, rfl, ?_⟩
    intro agree
    have record : ("" : String) = "ums" := agree.1.mpr rfl
    revert record
    decide

end BuildLinux.Concrete.UsbModes
