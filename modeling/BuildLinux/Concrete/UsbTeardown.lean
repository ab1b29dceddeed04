/-
`stop` removes every well-named gadget tree, and what `start` leaves is one.

While no command fails of itself, the scripts run in a gadget directory whose
tree is known exactly.  Each loop is read as a list of commands on the tree, so
that the removal order is settled on trees.  A start under any faults leaves no
gadget or a well-named one, and needs only an unmounted configfs to succeed.
-/

import BuildLinux.Concrete.UsbTree
import BuildLinux.Concrete.UsbScripts

namespace BuildLinux.Concrete.UsbTeardown

open CommandScript
open CommandScript.Script (run output each)
open PathnameExpansion (Plain)
open UsbGadget (Name Path Listing Config Gadget GadgetCommand hidden)
open UsbCommands (Command Choice Directory State World Words exec)
open UsbScripts UsbTree

/-! ### Runs without faults -/

/-- Unless the environment makes a command fail, the script returns this and
ends in such a state. -/
abbrev Succeeds {value : Type} (script : UsbScript value) (result : value)
    (holds : State → Prop) (before : State) : Prop :=
  Ensures exec Choice.Faultless (fun _ => True) script
    (fun exit after => exit = .returned result ∧ holds after) before

theorem succeeds_bind {value result : Type} {first : UsbScript value} {middleValue : value}
    {middle : State → Prop} {rest : value → UsbScript result} {final : result}
    {holds : State → Prop} {before : State} (start : Succeeds first middleValue middle before)
    (later : ∀ after, middle after → Succeeds (rest middleValue) final holds after) :
    Succeeds (first.bind rest) final holds before := by
  apply Ensures.bind
  apply start.mono
  rintro exit after ⟨returned, reached⟩
  subst returned
  exact later after reached

theorem succeeds_run {issued : Command} {holds : State → Prop} {before : State}
    (succeeds : ∀ choice : Choice, choice.Faultless → (exec issued choice before).1.ok = true ∧
      holds (exec issued choice before).2) : Succeeds (run issued) () holds before := by
  apply Ensures.ifOk
  · exact fun _ _ => trivial
  · exact fun choice faultless _ => ⟨rfl, (succeeds choice faultless).2⟩
  · intro choice faultless failed
    rw [(succeeds choice faultless).1] at failed
    cases failed

theorem succeeds_known {issued : Command} {before after : State}
    (known : ∀ choice : Choice, choice.Faultless →
      exec issued choice before = ({ ok := true, out := [] }, after)) :
    Succeeds (run issued) () (fun reached => reached = after) before := by
  apply succeeds_run
  intro choice faultless
  rw [known choice faultless]
  exact ⟨rfl, rfl⟩

theorem succeeds_each {item : Type} {body : item → UsbScript Unit}
    (assertion : List item → State → Prop)
    (round : ∀ word rest before, assertion (word :: rest) before →
      Succeeds (body word) () (assertion rest) before)
    (words : List item) {before : State} (starts : assertion words before) :
    Succeeds (each body words) () (assertion []) before := by
  refine Ensures.each ?_ (fun after finished => ⟨rfl, finished⟩) words starts
  intro word rest state reached
  apply (round word rest state reached).mono
  rintro exit after ⟨returned, holds⟩
  subst returned
  exact holds

/-! ### In a gadget directory -/

/-- The process stands in a gadget with this tree, and only that gadget differs
from the given world. -/
def At (world : World) (name : Name) (gadget : Gadget) (state : State) : Prop :=
  state.1 = .gadget name ∧ ∃ gadgets : Listing Gadget,
    state.2 = { world with gadgets := gadgets } ∧ gadgets.lookup name = some gadget ∧
      gadgets.erase name = world.gadgets.erase name

section InGadget

variable {world : World} {name : Name} {gadget after : Gadget} {before : State}

theorem At.current (mounted : world.configfs = true) (here : At world name gadget before) :
    UsbCommands.currentGadget before = some (name, gadget) := by
  obtain ⟨directory, current⟩ := before
  obtain ⟨stands, gadgets, same, found, _⟩ := here
  change directory = .gadget name at stands
  change current = _ at same
  subst stands same
  have reached : ({ world with gadgets := gadgets } : World).gadget name = some gadget :=
    (if_pos mounted).trans found
  unfold UsbCommands.currentGadget
  dsimp only
  rw [reached]
  rfl

theorem At.set (here : At world name gadget before) (next : Gadget) :
    At world name next (before.1, before.2.setGadget name next) := by
  obtain ⟨stands, gadgets, same, _, erased⟩ := here
  refine ⟨stands, gadgets.insert name next, ?_, AList.lookup_insert _, ?_⟩
  · rw [same]
    rfl
  · rw [erase_insert]
    exact erased

theorem change_succeeds (mounted : world.configfs = true) {change : GadgetCommand}
    (applied : change.apply gadget = (true, after)) (here : At world name gadget before) :
    Succeeds (run (.inGadget change)) () (At world name after) before := by
  apply succeeds_run
  intro choice faultless
  have result : exec (.inGadget change) choice before =
      ({ ok := true, out := [] }, (before.1, before.2.setGadget name after)) := by
    change UsbCommands.changedGadget choice before change = _
    unfold UsbCommands.changedGadget
    rw [faultless, here.current mounted]
    dsimp only
    rw [applied]
  rw [result]
  exact ⟨rfl, here.set after⟩

theorem changes_succeed (mounted : world.configfs = true) {changes : List GadgetCommand}
    (applied : applyAll changes gadget = some after) (here : At world name gadget before) :
    Succeeds (inGadget changes) () (At world name after) before := by
  -- The changes still to come lead from the tree reached to the last one.
  have loop : Succeeds (inGadget changes) () (fun reached => ∃ tree,
      applyAll [] tree = some after ∧ At world name tree reached) before := by
    apply succeeds_each fun rest reached => ∃ tree,
      applyAll rest tree = some after ∧ At world name tree reached
    · rintro change rest state ⟨tree, leads, atTree⟩
      rw [applyAll] at leads
      split at leads
      · rename_i next changed
        exact (change_succeeds mounted changed atTree).mono fun _ _ ended =>
          ⟨ended.1, next, leads, ended.2⟩
      · cases leads
    · exact ⟨gadget, applied, here⟩
  apply loop.mono
  rintro exit reached ⟨returned, tree, same, atTree⟩
  cases same
  exact ⟨returned, atTree⟩

theorem loop_succeeds (mounted : world.configfs = true) (names : List Name) (word : Name → Path)
    (change : Path → GadgetCommand)
    (applied : applyAll (names.map fun name => change (word name)) gadget = some after)
    (here : At world name gadget before) :
    Succeeds (each (fun path => run (.inGadget (change path))) (names.map word)) ()
      (At world name after) before := by
  have same : each (fun path => run (.inGadget (change path))) (names.map word) =
      inGadget (names.map fun name => change (word name)) := by
    unfold inGadget
    rw [Script.each_map, Script.each_map]
  rw [same]
  exact changes_succeed mounted applied here

theorem words_then {value : Type} {issued : Command} {words : Words}
    {rest : Words → UsbScript value} {result : value} {holds : State → Prop}
    (known : ∀ choice : Choice, choice.Faultless →
      exec issued choice before = ({ ok := true, out := words }, before))
    (later : Succeeds (rest words) result holds before) :
    Succeeds ((output issued).bind rest) result holds before := by
  intro choice faultless
  refine ⟨trivial, ?_⟩
  rw [known choice faultless]
  exact later

theorem exec_find (mounted : world.configfs = true) (here : At world name gadget before)
    (word : Path) (choice : Choice) (faultless : choice.Faultless) :
    exec (.find word) choice before =
      ({ ok := true, out := gadget.unquoted (gadget.find word) }, before) := by
  change UsbCommands.written choice before (UsbCommands.wordsIn before _) = _
  unfold UsbCommands.written UsbCommands.wordsIn
  rw [faultless, here.current mounted]
  rfl

theorem exec_ls (mounted : world.configfs = true) (here : At world name gadget before)
    (word : Path) (choice : Choice) (faultless : choice.Faultless) :
    exec (.ls word) choice before =
      ({ ok := true, out := gadget.unquoted (gadget.ls word) }, before) := by
  change UsbCommands.written choice before (UsbCommands.wordsIn before _) = _
  unfold UsbCommands.written UsbCommands.wordsIn
  rw [faultless, here.current mounted]
  rfl

end InGadget

/-! ### The loops of `stop` -/

section Loops

variable {world : World} {name : Name} {gadget : Gadget} {before : State}

theorem removeDescs_succeeds (mounted : world.configfs = true) (named : WellNamed gadget)
    (here : At world name gadget before) :
    Succeeds Ums.removeDescs () (At world name { gadget with osDesc := ∅ }) before := by
  apply words_then (exec_find mounted here _)
  rw [unquoted_find gadget ["os_desc"] (plain_one (by decide))
    fun link member => named.osDesc link (AList.mem_keys.mpr member)]
  exact loop_succeeds mounted gadget.osDesc.keys (fun link => ["os_desc", link])
    GadgetCommand.rm (remove_osDesc named.osDesc) here

theorem removeConfig_succeeds (mounted : world.configfs = true) (named : WellNamed gadget)
    (noDesc : gadget.osDesc = ∅) {cfg : Name} {rest : List Name}
    (first : gadget.configs.keys = cfg :: rest) (here : At world name gadget before) :
    Succeeds (removeConfig [cfg]) ()
      (At world name { gadget with configs := gadget.configs.erase cfg }) before := by
  have member : cfg ∈ gadget.configs := by
    rw [AList.mem_keys, first]
    exact List.mem_cons_self
  obtain ⟨config, found⟩ := Option.isSome_iff_exists.mp (AList.lookup_isSome.mpr member)
  have plainName := (named.configs cfg member).1
  have plainPath : ∀ part ∈ ["configs", cfg], Plain part :=
    plain_cons (by decide) (plain_one plainName)
  have linksHere : gadget.linksIn ["configs", cfg] = config.links.keys := by
    simp only [Gadget.linksIn, found]
  apply words_then (exec_find mounted here _)
  have words := unquoted_find gadget ["configs", cfg] plainPath (by
    rw [linksHere]
    exact fun link inLinks => named.links cfg config found link (AList.mem_keys.mpr inLinks))
  rw [linksHere] at words
  change Succeeds ((each _ (gadget.unquoted (gadget.find ["configs", cfg]))).bind _) _ _ _
  rw [words]
  apply succeeds_bind (loop_succeeds mounted config.links.keys (fun link => ["configs", cfg, link])
    GadgetCommand.rm (remove_links first found plainName (named.links cfg config found)) here)
  intro unlinked atUnlinked
  have proper := named.languages cfg config found
  have readUnlinked : (gadget.setConfig cfg { config with links := ∅ }).configs.lookup cfg =
      some { config with links := ∅ } := AList.lookup_insert _
  have shown : (gadget.setConfig cfg { config with links := ∅ }).items ["configs", cfg, "strings"] =
      config.strings.keys.filter fun name => !hidden name := by
    simp only [Gadget.items, readUnlinked]
  apply words_then (exec_ls mounted atUnlinked _)
  change Succeeds ((each _ (Gadget.unquoted _ (Gadget.ls _ ["configs", cfg, "strings"]))).bind _)
    _ _ _
  rw [unquoted_ls _ ["configs", cfg, "strings"]
    (plain_cons (by decide) (plain_cons plainName (plain_one (by decide)))) shown
    fun language inStrings => proper language (AList.mem_keys.mpr inStrings)]
  have removed : applyAll (config.strings.keys.map fun language =>
        .rmdir ["configs", cfg, "strings", language])
      (gadget.setConfig cfg { config with links := ∅ }) =
        some (gadget.setConfig cfg Config.created) :=
    remove_languages gadget { config with links := ∅ } plainName proper
  apply succeeds_bind (loop_succeeds mounted config.strings.keys (fun language => [language])
    (fun str => .rmdir ("configs" :: [cfg] ++ "strings" :: str)) removed atUnlinked)
  intro bare atBare
  exact change_succeeds mounted (remove_config plainName noDesc) atBare

def WithConfigs (world : World) (name : Name) (gadget : Gadget) (names : List Name)
    (state : State) : Prop :=
  ∃ configs : Listing Config, configs.keys = names ∧
    WellNamed { gadget with configs := configs } ∧
      At world name { gadget with configs := configs } state

theorem removeConfigs_succeeds (mounted : world.configfs = true) (names : List Name)
    {gadget : Gadget} (named : WellNamed gadget) (noDesc : gadget.osDesc = ∅)
    (keys : gadget.configs.keys = names) {before : State} (here : At world name gadget before) :
    Succeeds (each removeConfig (names.map fun cfg => [cfg])) ()
      (At world name { gadget with configs := ∅ }) before := by
  rw [Script.each_map]
  have loop : Succeeds (each (fun cfg => removeConfig [cfg]) names) ()
      (WithConfigs world name gadget []) before := by
    apply succeeds_each (WithConfigs world name gadget)
    · rintro cfg rest state ⟨configs, keysThere, namedThere, atThere⟩
      apply (removeConfig_succeeds mounted namedThere noDesc keysThere atThere).mono
      rintro exit after ⟨returned, reached⟩
      have keysRest : (configs.erase cfg).keys = rest := by
        rw [AList.keys_erase, keysThere, List.erase_cons_head]
      exact ⟨returned, configs.erase cfg, keysRest, namedThere.eraseConfig cfg, reached⟩
    · exact ⟨gadget.configs, keys, named, here⟩
  apply loop.mono
  rintro exit after ⟨returned, configs, noKeys, _, reached⟩
  rw [eq_empty_of_keys noKeys] at reached
  exact ⟨returned, reached⟩

theorem removeItems_succeeds (mounted : world.configfs = true) (named : WellNamed gadget)
    (noDesc : gadget.osDesc = ∅) (here : At world name gadget before) :
    Succeeds removeItems () (At world name Gadget.created) before := by
  apply words_then (exec_ls mounted here _)
  rw [unquoted_ls gadget ["configs"] (plain_one (by decide)) rfl
    fun cfg member => named.configs cfg (AList.mem_keys.mpr member)]
  apply succeeds_bind (removeConfigs_succeeds mounted _ named noDesc rfl here)
  intro noConfigs atNoConfigs
  apply words_then (exec_ls mounted atNoConfigs _)
  rw [unquoted_ls { gadget with configs := ∅ } ["functions"] (plain_one (by decide)) rfl
    fun function member => named.functions function (AList.mem_keys.mpr member)]
  have functions : applyAll (gadget.functions.keys.map fun function =>
      .rmdir ["functions", function]) { gadget with configs := ∅ } =
        some { gadget with configs := ∅, functions := ∅ } :=
    remove_functions { gadget with configs := ∅ } rfl named.functions
  apply succeeds_bind (loop_succeeds mounted gadget.functions.keys (fun function => [function])
    (fun func => .rmdir ("functions" :: func)) functions atNoConfigs)
  intro noFunctions atNoFunctions
  apply words_then (exec_ls mounted atNoFunctions _)
  rw [unquoted_ls { gadget with configs := ∅, functions := ∅ } ["strings"] (plain_one (by decide))
    rfl fun language member => named.strings language (AList.mem_keys.mpr member)]
  have strings : applyAll (gadget.strings.keys.map fun language => .rmdir ["strings", language])
      { gadget with configs := ∅, functions := ∅ } = some Gadget.created := by
    apply (remove_strings { gadget with configs := ∅, functions := ∅ } named.strings).trans
    rw [noDesc]
    rfl
  exact loop_succeeds mounted gadget.strings.keys (fun language => [language])
    (fun str => .rmdir ("strings" :: str)) strings atNoFunctions

end Loops

/-! ### `stop` -/

def Removed (name : Name) (world : World) : World :=
  { world with
    gadgets := world.gadgets.erase name
    configfs := false }

theorem removeGadget_succeeds {world : World} {name : Name} {before : State}
    (mounted : world.configfs = true) (here : At world name Gadget.created before) :
    Succeeds (removeGadget name) () (fun reached => reached = (.root, Removed name world))
      before := by
  obtain ⟨directory, current⟩ := before
  obtain ⟨_, gadgets, same, found, erased⟩ := here
  change current = _ at same
  subst same
  have outside : ∀ choice : Choice, choice.Faultless →
      exec (.cd .root) choice (directory, { world with gadgets := gadgets }) =
        ({ ok := true, out := [] }, (.root, { world with gadgets := gadgets })) :=
    fun choice faultless => UsbCommands.changed_faultless faultless rfl
  have reached : ({ world with gadgets := gadgets } : World).rmdirGadget name =
      some { world with gadgets := world.gadgets.erase name } := by
    have current : ({ world with gadgets := gadgets } : World).gadget name = some Gadget.created :=
      (if_pos mounted).trans found
    unfold World.rmdirGadget
    rw [current]
    change some { world with gadgets := gadgets.erase name } = _
    rw [erased]
  have removed : ∀ choice : Choice, choice.Faultless →
      exec (.rmdirGadget name) choice (.root, { world with gadgets := gadgets }) =
        ({ ok := true, out := [] }, (.root, { world with gadgets := world.gadgets.erase name })) :=
    fun choice faultless => UsbCommands.changedWorld_faultless faultless reached
  have unmounted : ∀ choice : Choice, choice.Faultless →
      exec .umountConfigfs choice (.root, { world with gadgets := world.gadgets.erase name }) =
        ({ ok := true, out := [] }, (.root, Removed name world)) :=
    fun choice faultless => UsbCommands.changedWorld_faultless faultless (if_pos mounted)
  apply succeeds_bind (succeeds_known outside)
  intro atRoot isRoot
  subst isRoot
  apply succeeds_bind (succeeds_known removed)
  intro afterRemoval isRemoved
  subst isRemoved
  exact succeeds_known unmounted

theorem stop_succeeds {world : World} {name : Name} {gadget : Gadget} {first : UsbScript Unit}
    (mounted : world.configfs = true) (present : world.gadgets.lookup name = some gadget)
    (named : WellNamed gadget)
    (clears : ∀ before, At world name gadget before →
      Succeeds first () (At world name { gadget with osDesc := ∅ }) before) (cwd : Directory) :
    Succeeds (process (stopGadget name first)) ()
      (fun reached => reached = (.root, Removed name world)) (cwd, world) := by
  have reached : world.gadget name = some gadget := (if_pos mounted).trans present
  have enters : ∀ choice : Choice, choice.Faultless →
      exec (.cd (.gadget name)) choice (.root, world) =
        ({ ok := true, out := [] }, (.gadget name, world)) := by
    intro choice faultless
    apply UsbCommands.changed_faultless faultless
    apply if_pos
    change (world.gadget name).isSome = true
    rw [reached]
    rfl
  intro started _
  refine ⟨trivial, ?_⟩
  apply Ensures.ifOk
  · exact fun _ _ => trivial
  · intro tested _ _
    apply succeeds_bind (succeeds_known enters)
    intro inside isInside
    subst isInside
    have here : At world name gadget (.gadget name, world) :=
      ⟨rfl, world.gadgets, rfl, present, rfl⟩
    apply succeeds_bind (clears _ here)
    intro cleared atCleared
    apply succeeds_bind (removeItems_succeeds mounted named.clearDescs rfl atCleared)
    intro bare atBare
    exact removeGadget_succeeds mounted atBare
  · intro tested _ absent
    change (world.gadget name).isSome = false at absent
    rw [reached] at absent
    cases absent

theorem stop_absent {world : World} {name : Name} (first : UsbScript Unit)
    (absent : name ∉ world.gadgets) (cwd : Directory) :
    Succeeds (process (stopGadget name first)) ()
      (fun reached => name ∉ reached.2.gadgets ∧ reached.2.configfs = false) (cwd, world) := by
  intro started _
  refine ⟨trivial, ?_⟩
  apply Ensures.ifOk
  · exact fun _ _ => trivial
  · intro tested _ found
    change (world.gadget name).isSome = true at found
    unfold World.gadget at found
    split at found
    · exact absurd (AList.lookup_isSome.mp found) absent
    · cases found
  · intro tested _ _
    apply Ensures.ifOk
    · exact fun _ _ => trivial
    · intro mountpoint _ mounted
      have unmounted : ∀ choice : Choice, choice.Faultless →
          exec .umountConfigfs choice (.root, world) =
            ({ ok := true, out := [] }, (.root, { world with configfs := false })) :=
        fun choice faultless => UsbCommands.changedWorld_faultless faultless (if_pos mounted)
      apply (succeeds_known unmounted).mono
      rintro exit after ⟨returned, same⟩
      subst same
      exact ⟨returned, absent, rfl⟩
    · exact fun mountpoint _ unmounted => ⟨rfl, absent, unmounted⟩

/-! ### `start` -/

section Start

variable (tidy : Gadget → Prop)

/-- If the gadget exists, it can be reached and its tree is tidy. -/
def Left (name : Name) (state : State) : Prop :=
  ∀ gadget, state.2.gadgets.lookup name = some gadget → state.2.configfs = true ∧ tidy gadget

/-- The commands of `start`, in a gadget only those that keep a tidy tree tidy. -/
def Starts : Command → Prop
  | .startShell | .testDirConfigfsMount | .mkdirConfigfsMount | .mountpointConfigfs
  | .mountConfigfs | .serial | .cd _ | .cdInto _ | .mkdirGadget _ => True
  | .inGadget change => ∀ gadget, tidy gadget → tidy (change.apply gadget).2
  | _ => False

variable {tidy}

theorem Left.sameWorld {name : Name} {before after : State} (left : Left tidy name before)
    (same : after.2 = before.2) : Left tidy name after := by
  unfold Left
  rw [same]
  exact left

theorem Left.set {name : Name} {directory : Directory} {world : World} {changed : Name}
    {next : Gadget} (left : Left tidy name (directory, world)) (mounted : world.configfs = true)
    (isTidy : name = changed → tidy next) :
    Left tidy name (directory, world.setGadget changed next) := by
  intro gadget found
  refine ⟨mounted, ?_⟩
  by_cases same : name = changed
  · have read : (world.gadgets.insert changed next).lookup name = some gadget := found
    rw [same, AList.lookup_insert] at read
    rw [← Option.some.inj read]
    exact isTidy same
  · have read : (world.gadgets.insert changed next).lookup name = some gadget := found
    rw [AList.lookup_insert_ne same] at read
    exact (left gadget read).2

theorem changedWorld_left {name : Name} {choice : Choice} {state : State} {after : Option World}
    (left : Left tidy name state)
    (keeps : ∀ world, after = some world → Left tidy name (state.1, world)) :
    Left tidy name (UsbCommands.changedWorld choice state after).2 :=
  UsbCommands.changedWorld_keeps (fun world => Left tidy name (state.1, world)) left keeps

theorem changedGadget_left {name : Name} {choice : Choice} {state : State}
    {change : GadgetCommand} (left : Left tidy name state)
    (keeps : ∀ gadget, tidy gadget → tidy (change.apply gadget).2) :
    Left tidy name (UsbCommands.changedGadget choice state change).2 := by
  unfold UsbCommands.changedGadget
  split
  · rename_i current gadget _ found
    obtain ⟨directory, world⟩ := state
    unfold UsbCommands.currentGadget at found
    split at found
    · rename_i stands
      cases stands
      obtain ⟨reached, inWorld, same⟩ := Option.map_eq_some_iff.mp found
      cases same
      obtain ⟨mounted, present⟩ := World.gadget_some inWorld
      refine left.set mounted fun same => keeps _ ?_
      subst same
      exact (left gadget present).2
    · cases found
  · exact left

theorem start_left (created : tidy Gadget.created) {name : Name} {issued : Command}
    (starts : Starts tidy issued) (choice : Choice) {state : State}
    (left : Left tidy name state) : Left tidy name (exec issued choice state).2 := by
  cases issued with
  | startShell => exact left
  | testDirConfigfsMount => exact left
  | mountpointConfigfs => exact left
  | serial => exact left.sameWorld (congrArg Prod.snd (UsbCommands.written_state _ _ _))
  | mkdirConfigfsMount =>
      apply changedWorld_left left
      intro world same
      cases same
      exact left
  | mountConfigfs =>
      apply changedWorld_left left
      intro world found
      obtain ⟨_, _, mounted⟩ := World.mountConfigfs_some found
      rw [mounted]
      exact fun gadget found => ⟨rfl, (left gadget found).2⟩
  | cd target => exact left.sameWorld (UsbCommands.cd_world target choice state)
  | cdInto other => exact left.sameWorld (UsbCommands.cdInto_world other choice state)
  | mkdirGadget other =>
      apply changedWorld_left left
      intro world found
      obtain ⟨_, mounted, _, made⟩ := World.mkdirGadget_some found
      rw [made]
      exact left.set mounted fun _ => created
  | inGadget change => exact changedGadget_left left starts
  | _ => exact starts.elim

theorem create_starts (name : Name) {tree : String → List GadgetCommand}
    (keeps : ∀ serial, ∀ change ∈ tree serial, ∀ gadget, tidy gadget →
      tidy (change.apply gadget).2) :
    (process (create name fun serial => inGadget (tree serial))).Issues (Starts tidy) := by
  have refuses : configfsError.Issues (Starts tidy) := Nat.one_ne_zero
  refine ⟨trivial, fun _ => ?_⟩
  refine (Script.Issues.orElse (by trivial) (Script.Issues.run (by trivial))).bind fun _ => ?_
  refine (Script.Issues.andThen (by trivial) refuses).bind fun _ => ?_
  refine (Script.Issues.output (by trivial)).bind fun serial => ?_
  refine (Script.Issues.run (by trivial)).bind fun _ => ?_
  refine (Script.Issues.run (by trivial)).bind fun _ => ?_
  refine (Script.Issues.run (by trivial)).bind fun _ => ?_
  refine (Script.Issues.run (by trivial)).bind fun _ => ?_
  exact Script.Issues.each _ fun change member => Script.Issues.run (keeps _ change member)

/-- Whatever fails, `start` leaves no gadget or a tidy one. -/
theorem create_leaves (created : tidy Gadget.created) (name : Name)
    {tree : String → List GadgetCommand}
    (keeps : ∀ serial, ∀ change ∈ tree serial, ∀ gadget, tidy gadget →
      tidy (change.apply gadget).2) {before : State} (absent : name ∉ before.2.gadgets)
    (choices : Nat → Choice) :
    Left tidy name (eval exec (process (create name fun serial => inGadget (tree serial)))
      choices before).2 := by
  have left : Left tidy name before := fun gadget found =>
    absurd (AList.lookup_isSome.mp (by rw [found]; rfl)) absent
  have ensured : Ensures exec (fun _ => True) (fun _ => True)
      (process (create name fun serial => inGadget (tree serial)))
      (fun exit after => exit.FailsOnly ∧ Left tidy name after) before :=
    Ensures.ofIssues (Left tidy name) (create_starts name keeps)
      (fun _ choice _ starts _ holds => start_left created starts choice holds)
      (fun _ _ => trivial) left
  exact (ensured.sound choices fun _ => trivial).2.2

end Start

def Prepared (world : World) : World :=
  { world with
    configfsMount := true
    configfs := true }

theorem prepare_succeeds {world : World} (cwd : Directory) :
    Succeeds (Script.orElse .testDirConfigfsMount (run .mkdirConfigfsMount)) ()
      (fun reached => reached = (cwd, { world with configfsMount := true })) (cwd, world) := by
  apply Ensures.ifOk
  · exact fun _ _ => trivial
  · intro tested _ isDirectory
    have same : { world with configfsMount := true } = world := by
      rw [← show world.configfsMount = true from isDirectory]
    rw [same]
    exact ⟨rfl, rfl⟩
  · intro tested _ _
    exact succeeds_known fun choice faultless => UsbCommands.changedWorld_faultless faultless rfl

/-- Without faults `start` succeeds as soon as configfs is unmounted and the
gadget does not exist. -/
theorem create_succeeds {world : World} {name : Name} {tree : String → List GadgetCommand}
    (builds : ∀ serial, ∃ gadget, applyAll (tree serial) Gadget.created = some gadget)
    (unmounted : world.configfs = false) (absent : name ∉ world.gadgets) (cwd : Directory) :
    Succeeds (process (create name fun serial => inGadget (tree serial))) () (fun _ => True)
      (cwd, world) := by
  intro started _
  refine ⟨trivial, ?_⟩
  apply succeeds_bind (prepare_succeeds .root)
  intro prepared isPrepared
  subst isPrepared
  apply Ensures.bind
  apply Ensures.ifOk
  · exact fun _ _ => trivial
  · intro tested _ mounted
    exact absurd (unmounted.symm.trans mounted) Bool.false_ne_true
  intro tested _ _ read faultlessRead
  refine ⟨trivial, ?_⟩
  have mounts : ∀ choice : Choice, choice.Faultless →
      exec .mountConfigfs choice (.root, { world with configfsMount := true }) =
        ({ ok := true, out := [] }, (.root, Prepared world)) :=
    fun choice faultless => UsbCommands.changedWorld_faultless faultless (if_pos ⟨rfl, unmounted⟩)
  have enters : ∀ choice : Choice, choice.Faultless →
      exec (.cd .usbGadgetDir) choice (.root, Prepared world) =
        ({ ok := true, out := [] }, (.usbGadgetDir, Prepared world)) :=
    fun choice faultless => UsbCommands.changed_faultless faultless rfl
  have makes : ∀ choice : Choice, choice.Faultless →
      exec (.mkdirGadget name) choice (.usbGadgetDir, Prepared world) =
        ({ ok := true, out := [] },
          (.usbGadgetDir, (Prepared world).setGadget name Gadget.created)) :=
    fun choice faultless => UsbCommands.changedWorld_faultless faultless (if_pos ⟨rfl, absent⟩)
  have found : ((Prepared world).setGadget name Gadget.created).gadget name =
      some Gadget.created := (if_pos rfl).trans (AList.lookup_insert _)
  have descends : ∀ choice : Choice, choice.Faultless →
      exec (.cdInto name) choice
          (.usbGadgetDir, (Prepared world).setGadget name Gadget.created) =
        ({ ok := true, out := [] },
          (.gadget name, (Prepared world).setGadget name Gadget.created)) := by
    intro choice faultless
    apply UsbCommands.changed_faultless faultless
    apply if_pos
    rw [found]
    rfl
  have same : (exec .serial read (.root, { world with configfsMount := true })).2 =
      (.root, { world with configfsMount := true }) := UsbCommands.written_state _ _ _
  change Ensures exec _ _ (Script.bind _ _) _
    (exec .serial read (.root, { world with configfsMount := true })).2
  rw [same]
  apply succeeds_bind (succeeds_known mounts)
  intro mounted isMounted
  subst isMounted
  apply succeeds_bind (succeeds_known enters)
  intro inside isInside
  subst isInside
  apply succeeds_bind (succeeds_known makes)
  intro made isMade
  subst isMade
  apply succeeds_bind (succeeds_known descends)
  intro current isCurrent
  subst isCurrent
  have here : At (Prepared world) name Gadget.created
      (.gadget name, (Prepared world).setGadget name Gadget.created) :=
    ⟨rfl, _, rfl, AList.lookup_insert _, erase_insert _ _ _⟩
  obtain ⟨gadget, applied⟩ := builds _
  have mountedThere : (Prepared world).configfs = true := rfl
  exact (changes_succeed mountedThere applied here).mono fun _ _ ended => ⟨ended.1, trivial⟩

/-! ### Both gadgets -/

/-- `stop` completes from every tidy tree, in particular from what a start under
any faults leaves, and then the gadget can be started again. -/
structure TearsDown (usbGadget : Name) (start stop : UsbScript Unit) (tidy : Gadget → Prop) :
    Prop where
  complete : ∀ (cwd : Directory) (world : World) (gadget : Gadget), world.configfs = true →
    world.gadgets.lookup usbGadget = some gadget → tidy gadget →
    ∀ choices : Nat → Choice, (∀ index, (choices index).Faultless) →
      eval exec (process stop) choices (cwd, world) =
        (.returned (), (.root, Removed usbGadget world))
  restartable : ∀ before : State, before.2.configfs = false → usbGadget ∉ before.2.gadgets →
    ∀ faults choices later : Nat → Choice, (∀ index, (choices index).Faultless) →
      (∀ index, (later index).Faultless) →
      let left := (eval exec (process start) faults before).2
      let stopped := eval exec (process stop) choices left
      stopped.1 = .returned () ∧ usbGadget ∉ stopped.2.2.gadgets ∧
        stopped.2.2.configfs = false ∧
        (eval exec (process start) later stopped.2).1 = .returned ()

theorem tearsDown_of {usbGadget : Name} {tree : String → List GadgetCommand}
    {first : UsbScript Unit} {tidy : Gadget → Prop} (created : tidy Gadget.created)
    (named : ∀ gadget, tidy gadget → WellNamed gadget)
    (keeps : ∀ serial, ∀ change ∈ tree serial, ∀ gadget, tidy gadget →
      tidy (change.apply gadget).2)
    (builds : ∀ serial, ∃ gadget, applyAll (tree serial) Gadget.created = some gadget)
    (clears : ∀ world gadget before, world.configfs = true → tidy gadget →
      At world usbGadget gadget before →
        Succeeds first () (At world usbGadget { gadget with osDesc := ∅ }) before) :
    TearsDown usbGadget (create usbGadget fun serial => inGadget (tree serial))
      (stopGadget usbGadget first) tidy := by
  have complete (cwd : Directory) (world : World) (gadget : Gadget)
      (mounted : world.configfs = true)
      (present : world.gadgets.lookup usbGadget = some gadget) (isTidy : tidy gadget)
      (choices : Nat → Choice) (faultless : ∀ index, (choices index).Faultless) :
      eval exec (process (stopGadget usbGadget first)) choices (cwd, world) =
        (.returned (), (.root, Removed usbGadget world)) := by
    have ended := ((stop_succeeds mounted present (named gadget isTidy)
      (fun before here => clears world gadget before mounted isTidy here) cwd).sound
        choices faultless).2
    exact Prod.ext ended.1 ended.2
  refine ⟨complete, ?_⟩
  intro before unmounted absent faults choices later faultless faultlessLater left stopped
  have tidyLeft : Left tidy usbGadget left := create_leaves created usbGadget keeps absent faults
  have stops : stopped.1 = .returned () ∧ usbGadget ∉ stopped.2.2.gadgets ∧
      stopped.2.2.configfs = false := by
    cases found : left.2.gadgets.lookup usbGadget with
    | none =>
        have missing : usbGadget ∉ left.2.gadgets := AList.lookup_eq_none.mp found
        have ended := ((stop_absent first missing left.1).sound choices faultless).2
        exact ⟨ended.1, ended.2.1, ended.2.2⟩
    | some gadget =>
        obtain ⟨mounted, isTidy⟩ := tidyLeft gadget found
        have ended : stopped = _ :=
          complete left.1 left.2 gadget mounted found isTidy choices faultless
        rw [ended]
        refine ⟨rfl, ?_, rfl⟩
        exact fun member => (AList.mem_erase.mp member).1 rfl
  refine ⟨stops.1, stops.2.1, stops.2.2, ?_⟩
  exact ((create_succeeds builds stops.2.2 stops.2.1 stopped.2.1).sound later faultlessLater).2.1

theorem umsTree_builds (serial : String) : ∀ change ∈ Ums.startTree serial, Builds change := by
  have all : ((Ums.startTree serial).all fun change => decide (Builds change)) = true := rfl
  exact fun change member => of_decide_eq_true (List.all_eq_true.mp all change member)

theorem acmTree_builds (serial : String) : ∀ change ∈ Acm.startTree serial,
    Builds change ∧ LeavesDescs change := by
  have all : ((Acm.startTree serial).all fun change =>
      decide (Builds change ∧ LeavesDescs change)) = true := rfl
  exact fun change member => of_decide_eq_true (List.all_eq_true.mp all change member)

/-- ums.sh tears down every well-named gadget, acm.sh those without links in `os_desc`. -/
theorem teardown_complete :
    TearsDown Ums.usbGadget Ums.start Ums.stop WellNamed ∧
      TearsDown Acm.usbGadget Acm.start Acm.stop
        (fun gadget => WellNamed gadget ∧ gadget.osDesc = ∅) := by
  constructor
  · apply tearsDown_of wellNamed_created (fun _ named => named)
    · exact fun serial change member gadget named =>
        apply_wellNamed (umsTree_builds serial change member) named
    · exact fun serial => ⟨_, rfl⟩
    · exact fun world gadget before mounted named here => removeDescs_succeeds mounted named here
  · apply tearsDown_of ⟨wellNamed_created, rfl⟩ (fun _ tidy => tidy.1)
    · intro serial change member gadget tidy
      obtain ⟨builds, leaves⟩ := acmTree_builds _ change member
      exact ⟨apply_wellNamed builds tidy.1, apply_osDesc leaves tidy.2⟩
    · exact fun serial => ⟨_, rfl⟩
    · intro world gadget before _ tidy here
      refine ⟨rfl, ?_⟩
      rw [← tidy.2]
      exact here

def withGadget (usbGadget : Name) (gadget : Gadget) : World :=
  { configfsMount := true
    configfs := true
    gadgets := AList.singleton usbGadget gadget
    umsMountDir := false
    umsFile := false
    umsMounted := false
    hotplug := ""
    usbConfig := "" }

def noFault : Choice := { fails := false, text := "" }

/-- What the commands leave of a new gadget, whichever of them fail. -/
def built (changes : List GadgetCommand) : Gadget :=
  changes.foldl (fun gadget change => (change.apply gadget).2) Gadget.created

theorem built_tidy {tidy : Gadget → Prop} (created : tidy Gadget.created)
    {changes : List GadgetCommand}
    (keeps : ∀ change ∈ changes, ∀ gadget, tidy gadget → tidy (change.apply gadget).2) :
    tidy (built changes) :=
  List.foldlRecOn changes _ created fun gadget isTidy change member =>
    keeps change member gadget isTidy

/-- Both functions, each with a config of its own. -/
def bothFunctions : Gadget := built (Ums.startTree "42" ++ Acm.startTree "42")

def serialFunction : Gadget := built (Acm.startTree "42")

example : bothFunctions.configs.keys = ["c.1", "b.1"] ∧
    (["c.1", "b.1"].map fun cfg => bothFunctions.linksIn ["configs", cfg]) = [["f1"], ["f1"]] ∧
    bothFunctions.osDesc.keys = ["b.1"] ∧ bothFunctions.strings.keys = ["0x409"] := by
  decide +kernel

def unplugged : World :=
  { withGadget Ums.usbGadget Gadget.created with
    configfs := false
    gadgets := ∅ }

/-- The tenth command fails. -/
def failsTenth (index : Nat) : Choice := { fails := index == 9, text := "42" }

theorem teardown_complete_started :
    eval exec (process Ums.stop) (fun _ => noFault)
        (.root, withGadget Ums.usbGadget bothFunctions) =
      (.returned (), (.root, Removed Ums.usbGadget (withGadget Ums.usbGadget bothFunctions))) ∧
    eval exec (process Acm.stop) (fun _ => noFault)
        (.root, withGadget Acm.usbGadget serialFunction) =
      (.returned (), (.root, Removed Acm.usbGadget (withGadget Acm.usbGadget serialFunction))) ∧
    (let left := (eval exec (process Ums.start) failsTenth (.root, unplugged)).2
      let stopped := eval exec (process Ums.stop) (fun _ => noFault) left
      stopped.1 = .returned () ∧ stopped.2.2.configfs = false ∧
        (eval exec (process Ums.start) (fun _ => noFault) stopped.2).1 = .returned ()) ∧
    (let left := (eval exec (process Acm.start) failsTenth (.root, unplugged)).2
      let stopped := eval exec (process Acm.stop) (fun _ => noFault) left
      stopped.1 = .returned () ∧ stopped.2.2.configfs = false ∧
        (eval exec (process Acm.start) (fun _ => noFault) stopped.2).1 = .returned ()) := by
  have builds : ∀ change ∈ Ums.startTree "42" ++ Acm.startTree "42", Builds change := by
    intro change member
    rcases List.mem_append.mp member with inUms | inAcm
    · exact umsTree_builds "42" change inUms
    · exact (acmTree_builds "42" change inAcm).1
  have named : WellNamed bothFunctions := built_tidy wellNamed_created
    fun change member _ named => apply_wellNamed (builds change member) named
  have tidy : WellNamed serialFunction ∧ serialFunction.osDesc = ∅ :=
    @built_tidy (fun gadget => WellNamed gadget ∧ gadget.osDesc = ∅) ⟨wellNamed_created, rfl⟩ _
      fun change member _ tidy =>
        ⟨apply_wellNamed (acmTree_builds "42" change member).1 tidy.1,
          apply_osDesc (acmTree_builds "42" change member).2 tidy.2⟩
  obtain ⟨ums, acm⟩ := teardown_complete
  obtain ⟨umsStops, _, umsUnmounts, umsStarts⟩ := ums.restartable (.root, unplugged) rfl
    (AList.notMem_empty _) failsTenth (fun _ => noFault) (fun _ => noFault) (fun _ => rfl)
    fun _ => rfl
  obtain ⟨acmStops, _, acmUnmounts, acmStarts⟩ := acm.restartable (.root, unplugged) rfl
    (AList.notMem_empty _) failsTenth (fun _ => noFault) (fun _ => noFault) (fun _ => rfl)
    fun _ => rfl
  exact ⟨ums.complete .root _ _ rfl rfl named _ fun _ => rfl,
    acm.complete .root _ _ rfl rfl tidy _ fun _ => rfl,
    ⟨umsStops, umsUnmounts, umsStarts⟩, ⟨acmStops, acmUnmounts, acmStarts⟩⟩

/-- Two functions, the name of one matching the name of the other. -/
def starred : Gadget :=
  { Gadget.created with
    functions := (AList.singleton "mass_storage.0" "").insert "mass_storage.*" "" }

def dotted : Gadget :=
  { Gadget.created with configs := AList.singleton ".1" Config.created }

/-- The shell removes both functions with the first `rmdir`, and the second is
refused; the hidden config is not removed, and the `rmdir` of the gadget is refused. -/
theorem stop_refused :
    (∀ function ∈ starred.functions.keys, ∀ letter ∈ function.toList,
        letter.isWhitespace = false) ∧
      (eval exec (process Ums.stop) (fun _ => noFault)
        (.root, withGadget Ums.usbGadget starred)).1.status = 1 ∧
      Ums.usbGadget ∈ (eval exec (process Ums.stop) (fun _ => noFault)
        (.root, withGadget Ums.usbGadget starred)).2.2.gadgets ∧
      (eval exec (process Ums.stop) (fun _ => noFault)
        (.root, withGadget Ums.usbGadget dotted)).1.status = 1 ∧
      Ums.usbGadget ∈ (eval exec (process Ums.stop) (fun _ => noFault)
        (.root, withGadget Ums.usbGadget dotted)).2.2.gadgets := by
  have spaceless : (starred.functions.keys.all fun function => function.toList.all fun letter =>
      letter.isWhitespace == false) = true := by decide
  refine ⟨fun function isKey letter member => ?_, rfl, ?_, rfl, ?_⟩
  · have letters := List.all_eq_true.mp spaceless function isKey
    exact beq_iff_eq.mp (List.all_eq_true.mp letters letter member)
  · decide +kernel
  · decide +kernel

end BuildLinux.Concrete.UsbTeardown
