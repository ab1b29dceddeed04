/-
Removing a gadget tree directory by directory.

A tree is well named when the shell leaves all of its names as they are and
`ls` shows those it has to show.  Then the words a loop goes over are exactly
the names of one listing, and removing them one by one, each from the front of
what is left, empties the listing.
-/

import BuildLinux.Concrete.UsbGadget

namespace BuildLinux.Concrete.UsbTree

open PathnameExpansion (expand Plain expand_plain)
open UsbGadget

/-! ### Listings -/

theorem erase_insert {item : Type} (listing : Listing item) (name : Name) (value : item) :
    (listing.insert name value).erase name = listing.erase name := by
  apply AList.ext
  change List.kerase name (⟨name, value⟩ :: List.kerase name listing.entries) =
    List.kerase name listing.entries
  exact List.kerase_cons_eq rfl

theorem eq_empty_of_keys {item : Type} {listing : Listing item} (none : listing.keys = []) :
    listing = ∅ := by
  apply AList.ext
  exact List.map_eq_nil_iff.mp none

/-- Writing the value a listing begins with changes nothing. -/
theorem insert_head {item : Type} {listing : Listing item} {name : Name} {rest : List Name}
    {value : item} (first : listing.keys = name :: rest)
    (found : listing.lookup name = some value) : listing.insert name value = listing := by
  obtain ⟨entries, nodup⟩ := listing
  cases entries with
  | nil => cases first
  | cons entry later =>
      obtain ⟨key, stored⟩ := entry
      have same : key = name := (List.cons.inj first).1
      subst same
      have value_eq : stored = value := by
        have read : List.dlookup key (⟨key, stored⟩ :: later) = some value := found
        rw [List.dlookup_cons_eq] at read
        exact Option.some.inj read
      subst value_eq
      have gone : List.kerase key ((⟨key, stored⟩ : (_ : Name) × item) :: later) = later :=
        List.kerase_cons_eq rfl
      apply AList.ext
      change ⟨key, stored⟩ :: List.kerase key (⟨key, stored⟩ :: later) = ⟨key, stored⟩ :: later
      rw [gone]

theorem setConfig_setConfig (gadget : Gadget) (name : Name) (first second : Config) :
    (gadget.setConfig name first).setConfig name second = gadget.setConfig name second := by
  unfold Gadget.setConfig
  rw [AList.insert_insert]

/-! ### Names -/

/-- A name that the shell leaves alone and `ls` shows. -/
def Proper (name : Name) : Prop := Plain name ∧ hidden name = false

structure WellNamed (gadget : Gadget) : Prop where
  osDesc : ∀ link ∈ gadget.osDesc, Plain link
  configs : ∀ name ∈ gadget.configs, Proper name
  languages : ∀ name config, gadget.configs.lookup name = some config →
    ∀ language ∈ config.strings, Proper language
  links : ∀ name config, gadget.configs.lookup name = some config →
    ∀ link ∈ config.links, Plain link
  functions : ∀ function ∈ gadget.functions, Proper function
  strings : ∀ language ∈ gadget.strings, Proper language

theorem WellNamed.eraseConfig {gadget : Gadget} (named : WellNamed gadget) (cfg : Name) :
    WellNamed { gadget with configs := gadget.configs.erase cfg } := by
  have later {name : Name} {config : Config}
      (found : (gadget.configs.erase cfg).lookup name = some config) :
      gadget.configs.lookup name = some config := by
    by_cases same : name = cfg
    · rw [same, AList.lookup_erase] at found
      cases found
    · rw [AList.lookup_erase_ne same] at found
      exact found
  exact
    { osDesc := named.osDesc
      configs := fun name member => named.configs name (AList.mem_erase.mp member).2
      languages := fun name config found => named.languages name config (later found)
      links := fun name config found => named.links name config (later found)
      functions := named.functions
      strings := named.strings }

theorem WellNamed.clearDescs {gadget : Gadget} (named : WellNamed gadget) :
    WellNamed { gadget with osDesc := ∅ } :=
  { osDesc := fun link member => absurd member (AList.notMem_empty link)
    configs := named.configs
    languages := named.languages
    links := named.links
    functions := named.functions
    strings := named.strings }

theorem unquoted_plain (gadget : Gadget) (output : List Path)
    (plain : ∀ word ∈ output, ∀ name ∈ word, Plain name) : gadget.unquoted output = output := by
  unfold Gadget.unquoted
  induction output with
  | nil => rfl
  | cons word rest ih =>
      rw [List.flatMap_cons, expand_plain _ _ (plain word List.mem_cons_self),
        ih fun other member => plain other (List.mem_cons_of_mem word member)]
      rfl

theorem filter_visible {names : List Name} (proper : ∀ name ∈ names, Proper name) :
    names.filter (fun name => !hidden name) = names := by
  apply List.filter_eq_self.mpr
  intro name member
  rw [(proper name member).2]
  rfl

theorem unquoted_ls (gadget : Gadget) (word : Path) (plain : ∀ name ∈ word, Plain name)
    {names : List Name} (shown : gadget.items word = names.filter fun name => !hidden name)
    (proper : ∀ name ∈ names, Proper name) :
    gadget.unquoted (gadget.ls word) = names.map fun name => [name] := by
  have listed : gadget.ls word = names.map fun name => [name] := by
    unfold Gadget.ls
    rw [expand_plain _ _ plain]
    change (gadget.items word).map _ = _
    rw [shown, filter_visible proper]
  rw [listed]
  apply unquoted_plain
  intro path member name inPath
  obtain ⟨listedName, inNames, same⟩ := List.mem_map.mp member
  rw [← same, List.mem_singleton] at inPath
  rw [inPath]
  exact (proper listedName inNames).1

theorem unquoted_find (gadget : Gadget) (word : Path) (plain : ∀ name ∈ word, Plain name)
    (links : ∀ link ∈ gadget.linksIn word, Plain link) :
    gadget.unquoted (gadget.find word) =
      (gadget.linksIn word).map fun link => word ++ [link] := by
  have found : gadget.find word = (gadget.linksIn word).map fun link => word ++ [link] := by
    unfold Gadget.find
    rw [expand_plain _ _ plain, List.flatMap_singleton]
  rw [found]
  apply unquoted_plain
  intro path member name inPath
  obtain ⟨link, inLinks, same⟩ := List.mem_map.mp member
  rw [← same, List.mem_append, List.mem_singleton] at inPath
  rcases inPath with inWord | isLink
  · exact plain name inWord
  · rw [isLink]
    exact links link inLinks

/-! ### Lists of commands -/

def applyAll : List GadgetCommand → Gadget → Option Gadget
  | [], gadget => some gadget
  | change :: rest, gadget =>
      match change.apply gadget with
      | (true, after) => applyAll rest after
      | (false, _) => none

theorem rm_plain {gadget after : Gadget} {path : Path} (plain : ∀ name ∈ path, Plain name)
    (removed : gadget.rm path = some after) :
    (GadgetCommand.rm path).apply gadget = (true, after) := by
  change removeEach Gadget.rm gadget (expand gadget.paths path) = _
  rw [expand_plain _ _ plain]
  unfold removeEach
  rw [removed]
  rfl

theorem rmdir_plain {gadget after : Gadget} {path : Path} (plain : ∀ name ∈ path, Plain name)
    (removed : gadget.rmdir path = some after) :
    (GadgetCommand.rmdir path).apply gadget = (true, after) := by
  change removeEach Gadget.rmdir gadget (expand gadget.paths path) = _
  rw [expand_plain _ _ plain]
  unfold removeEach
  rw [removed]
  rfl

/-- Removing the names of a listing one by one, in their order, empties it. -/
theorem drain {item : Type} (place : Listing item → Gadget) (change : Name → GadgetCommand)
    (listing : Listing item)
    (step : ∀ left name, name ∈ listing → name ∈ left →
      (change name).apply (place left) = (true, place (left.erase name))) :
    applyAll (listing.keys.map change) (place listing) = some (place ∅) := by
  -- The listing shrinks, so the induction is on the names it has left.
  have general (names : List Name) (left : Listing item) (keys : left.keys = names)
      (within : ∀ name ∈ names, name ∈ listing) :
      applyAll (names.map change) (place left) = some (place ∅) := by
    induction names generalizing left with
    | nil =>
        rw [eq_empty_of_keys keys]
        rfl
    | cons name rest ih =>
        have member : name ∈ left := by
          rw [AList.mem_keys, keys]
          exact List.mem_cons_self
        have keysRest : (left.erase name).keys = rest := by
          rw [AList.keys_erase, keys, List.erase_cons_head]
        rw [List.map_cons, applyAll, step left name (within name List.mem_cons_self) member]
        exact ih _ keysRest fun other inRest => within other (List.mem_cons_of_mem name inRest)
  exact general listing.keys listing rfl fun name member => AList.mem_keys.mpr member

/-! ### The listings of a gadget -/

theorem plain_cons {name : Name} {path : Path} (first : Plain name)
    (rest : ∀ other ∈ path, Plain other) : ∀ other ∈ name :: path, Plain other :=
  List.forall_mem_cons.mpr ⟨first, rest⟩

theorem plain_one {name : Name} (plain : Plain name) : ∀ other ∈ [name], Plain other :=
  plain_cons plain (List.forall_mem_nil _)

theorem rm_link {gadget : Gadget} {name link : Name} {config : Config}
    (found : gadget.configs.lookup name = some config) (member : link ∈ config.links) :
    gadget.rm ["configs", name, link] =
      some (gadget.setConfig name { config with links := config.links.erase link }) := by
  simp only [Gadget.rm, found, if_pos member]

theorem rmdir_language {gadget : Gadget} {name language : Name} {config : Config}
    (found : gadget.configs.lookup name = some config) (member : language ∈ config.strings) :
    gadget.rmdir ["configs", name, "strings", language] =
      some (gadget.setConfig name { config with strings := config.strings.erase language }) := by
  simp only [Gadget.rmdir, found, if_pos member]

theorem rmdir_config {gadget : Gadget} {name : Name}
    (found : gadget.configs.lookup name = some Config.created)
    (unlinked : gadget.configLinked name = false) :
    gadget.rmdir ["configs", name] =
      some { gadget with configs := gadget.configs.erase name } := by
  have bare : Config.created.strings.keys = [] ∧ Config.created.links.keys = [] ∧
      gadget.configLinked name = false := ⟨rfl, rfl, unlinked⟩
  simp only [Gadget.rmdir, found, if_pos bare]

theorem remove_osDesc {gadget : Gadget} (plain : ∀ link ∈ gadget.osDesc, Plain link) :
    applyAll (gadget.osDesc.keys.map fun link => .rm ["os_desc", link]) gadget =
      some { gadget with osDesc := ∅ } := by
  apply drain (fun osDesc => { gadget with osDesc := osDesc })
    (fun link => .rm ["os_desc", link]) gadget.osDesc
  intro left link inListing member
  exact rm_plain (plain_cons (by decide) (plain_one (plain link inListing))) (if_pos member)

theorem remove_links {gadget : Gadget} {name : Name} {config : Config} {rest : List Name}
    (first : gadget.configs.keys = name :: rest)
    (found : gadget.configs.lookup name = some config) (plainName : Plain name)
    (plain : ∀ link ∈ config.links, Plain link) :
    applyAll (config.links.keys.map fun link => .rm ["configs", name, link]) gadget =
      some (gadget.setConfig name { config with links := ∅ }) := by
  have same : gadget.setConfig name config = gadget := by
    unfold Gadget.setConfig
    rw [insert_head first found]
  have drained := drain (fun links => gadget.setConfig name { config with links := links })
    (fun link => .rm ["configs", name, link]) config.links
  rw [same] at drained
  apply drained
  intro left link inListing member
  apply rm_plain (plain_cons (by decide) (plain_cons plainName (plain_one (plain link inListing))))
  have read : (gadget.setConfig name { config with links := left }).configs.lookup name =
      some { config with links := left } := AList.lookup_insert _
  exact (rm_link read member).trans (congrArg some (setConfig_setConfig _ _ _ _))

theorem remove_languages (gadget : Gadget) (config : Config) {name : Name}
    (plainName : Plain name) (proper : ∀ language ∈ config.strings, Proper language) :
    applyAll (config.strings.keys.map fun language =>
        .rmdir ["configs", name, "strings", language]) (gadget.setConfig name config) =
      some (gadget.setConfig name { config with strings := ∅ }) := by
  apply drain (fun strings => gadget.setConfig name { config with strings := strings })
    (fun language => .rmdir ["configs", name, "strings", language]) config.strings
  intro left language inListing member
  apply rmdir_plain (plain_cons (by decide) (plain_cons plainName
    (plain_cons (by decide) (plain_one (proper language inListing).1))))
  have read : (gadget.setConfig name { config with strings := left }).configs.lookup name =
      some { config with strings := left } := AList.lookup_insert _
  exact (rmdir_language read member).trans (congrArg some (setConfig_setConfig _ _ _ _))

theorem remove_config {gadget : Gadget} {name : Name} (plainName : Plain name)
    (noDesc : gadget.osDesc = ∅) :
    (GadgetCommand.rmdir ["configs", name]).apply (gadget.setConfig name Config.created) =
      (true, { gadget with configs := gadget.configs.erase name }) := by
  apply rmdir_plain (plain_cons (by decide) (plain_one plainName))
  have read : (gadget.setConfig name Config.created).configs.lookup name = some Config.created :=
    AList.lookup_insert _
  have unlinked : (gadget.setConfig name Config.created).configLinked name = false := by
    change (gadget.osDesc.entries.any fun link => link.2 == name) = false
    rw [noDesc]
    rfl
  rw [rmdir_config read unlinked]
  change some { gadget with configs := (gadget.configs.insert name Config.created).erase name } = _
  rw [erase_insert]

theorem remove_functions (gadget : Gadget) (noConfigs : gadget.configs = ∅)
    (proper : ∀ function ∈ gadget.functions, Proper function) :
    applyAll (gadget.functions.keys.map fun function => .rmdir ["functions", function]) gadget =
      some { gadget with functions := ∅ } := by
  apply drain (fun functions => { gadget with functions := functions })
    (fun function => .rmdir ["functions", function]) gadget.functions
  intro left function inListing member
  apply rmdir_plain (plain_cons (by decide) (plain_one (proper function inListing).1))
  have unlinked : ({ gadget with functions := left } : Gadget).functionLinked function = false := by
    unfold Gadget.functionLinked
    rw [noConfigs]
    rfl
  exact if_pos ⟨member, unlinked⟩

theorem remove_strings (gadget : Gadget)
    (proper : ∀ language ∈ gadget.strings, Proper language) :
    applyAll (gadget.strings.keys.map fun language => .rmdir ["strings", language]) gadget =
      some { gadget with strings := ∅ } := by
  apply drain (fun strings => { gadget with strings := strings })
    (fun language => .rmdir ["strings", language]) gadget.strings
  intro left language inListing member
  exact rmdir_plain (plain_cons (by decide) (plain_one (proper language inListing).1))
    (if_pos member)

/-! ### Building a tree -/

/-- A command of `start`, with proper names wherever it creates something. -/
def Builds : GadgetCommand → Prop
  | .mkdir path => ∀ name ∈ path, Proper name
  | .echo _ _ => True
  | .ln _ link => ∀ name ∈ link, Proper name
  | .rm _ => False
  | .rmdir _ => False

instance (name : Name) : Decidable (Proper name) :=
  inferInstanceAs (Decidable (Plain name ∧ hidden name = false))

instance (change : GadgetCommand) : Decidable (Builds change) :=
  match change with
  | .mkdir path => inferInstanceAs (Decidable (∀ name ∈ path, Proper name))
  | .echo _ _ => inferInstanceAs (Decidable True)
  | .ln _ link => inferInstanceAs (Decidable (∀ name ∈ link, Proper name))
  | .rm _ => inferInstanceAs (Decidable False)
  | .rmdir _ => inferInstanceAs (Decidable False)

theorem wellNamed_created : WellNamed Gadget.created :=
  { osDesc := fun link member => absurd member (AList.notMem_empty link)
    configs := fun name member => absurd member (AList.notMem_empty name)
    languages := fun _ _ found => nomatch found
    links := fun _ _ found => nomatch found
    functions := fun function member => absurd member (AList.notMem_empty function)
    strings := fun language member => absurd member (AList.notMem_empty language) }

theorem forall_insert {item : Type} {holds : Name → Prop} {listing : Listing item}
    (before : ∀ name ∈ listing, holds name) {added : Name} (new : holds added) (value : item) :
    ∀ name ∈ listing.insert added value, holds name := by
  intro name member
  rcases (AList.mem_insert listing).mp member with same | old
  · rw [same]
    exact new
  · exact before name old

theorem WellNamed.setConfig {gadget : Gadget} (named : WellNamed gadget) {name : Name}
    (proper : Proper name) {config : Config}
    (languages : ∀ language ∈ config.strings, Proper language)
    (links : ∀ link ∈ config.links, Plain link) : WellNamed (gadget.setConfig name config) := by
  have stored {other : Name} {found : Config}
      (read : (gadget.configs.insert name config).lookup other = some found) :
      found = config ∨ gadget.configs.lookup other = some found := by
    by_cases same : other = name
    · rw [same, AList.lookup_insert] at read
      exact Or.inl (Option.some.inj read).symm
    · rw [AList.lookup_insert_ne same] at read
      exact Or.inr read
  exact
    { osDesc := named.osDesc
      configs := forall_insert named.configs proper config
      languages := by
        intro other found read
        rcases stored read with same | old
        · rw [same]
          exact languages
        · exact named.languages other found old
      links := by
        intro other found read
        rcases stored read with same | old
        · rw [same]
          exact links
        · exact named.links other found old
      functions := named.functions
      strings := named.strings }

theorem mkdir_wellNamed {gadget after : Gadget} (named : WellNamed gadget) {path : Path}
    (proper : ∀ name ∈ path, Proper name) (made : gadget.mkdir path = some after) :
    WellNamed after := by
  unfold Gadget.mkdir at made
  split at made
  · split at made
    · cases made
    · cases made
      exact { named with strings := forall_insert named.strings (proper _ (by simp)) () }
  · split at made
    · cases made
    · cases made
      exact { named with functions := forall_insert named.functions (proper _ (by simp)) "" }
  · split at made
    · cases made
    · cases made
      exact named.setConfig (proper _ (by simp))
        (fun language member => absurd member (AList.notMem_empty language))
        (fun link member => absurd member (AList.notMem_empty link))
  · split at made
    · cases made
    · rename_i config found
      split at made
      · cases made
      · cases made
        exact named.setConfig (proper _ (by simp))
          (forall_insert (named.languages _ config found) (proper _ (by simp)) ())
          (named.links _ config found)
  · cases made

theorem ln_wellNamed {gadget after : Gadget} (named : WellNamed gadget) {target link : Path}
    (proper : ∀ name ∈ link, Proper name) (linked : gadget.ln target link = some after) :
    WellNamed after := by
  unfold Gadget.ln at linked
  split at linked
  · split at linked
    · cases linked
      exact { named with osDesc := forall_insert named.osDesc (proper _ (by simp)).1 _ }
    · cases linked
  · split at linked
    · cases linked
    · rename_i config found
      split at linked
      · cases linked
        exact named.setConfig (proper _ (by simp)) (named.languages _ config found)
          (forall_insert (named.links _ config found) (proper _ (by simp)).1 _)
      · cases linked
  · cases linked

theorem write_wellNamed {gadget after : Gadget} (named : WellNamed gadget) {value : String}
    {path : Path} (wrote : gadget.write value path = some after) : WellNamed after := by
  unfold Gadget.write at wrote
  split at wrote
  · split at wrote
    · cases wrote
      exact { named with
        functions := forall_insert named.functions (named.functions _ ‹_›) value }
    · cases wrote
  · split at wrote
    · cases wrote
      exact named
    · cases wrote

theorem orUnchanged_keeps (holds : Gadget → Prop) {gadget : Gadget} {after : Option Gadget}
    (before : holds gadget) (keeps : ∀ next, after = some next → holds next) :
    holds (orUnchanged gadget after).2 := by
  cases after with
  | none => exact before
  | some next => exact keeps next rfl

theorem apply_wellNamed {change : GadgetCommand} (builds : Builds change) {gadget : Gadget}
    (named : WellNamed gadget) : WellNamed (change.apply gadget).2 := by
  cases change with
  | mkdir path =>
      exact orUnchanged_keeps WellNamed named fun _ made => mkdir_wellNamed named builds made
  | echo value path =>
      exact orUnchanged_keeps WellNamed named fun _ wrote => write_wellNamed named wrote
  | ln target link =>
      exact orUnchanged_keeps WellNamed named fun _ linked => ln_wellNamed named builds linked
  | rm word => exact builds.elim
  | rmdir word => exact builds.elim

def LeavesDescs : GadgetCommand → Prop
  | .mkdir _ => True
  | .echo _ _ => True
  | .ln _ link => link.head? ≠ some "os_desc"
  | .rm _ => False
  | .rmdir _ => False

instance (change : GadgetCommand) : Decidable (LeavesDescs change) :=
  match change with
  | .mkdir _ => inferInstanceAs (Decidable True)
  | .echo _ _ => inferInstanceAs (Decidable True)
  | .ln _ link => inferInstanceAs (Decidable (link.head? ≠ some "os_desc"))
  | .rm _ => inferInstanceAs (Decidable False)
  | .rmdir _ => inferInstanceAs (Decidable False)

theorem apply_osDesc {change : GadgetCommand} (leaves : LeavesDescs change) {gadget : Gadget}
    (empty : gadget.osDesc = ∅) : (change.apply gadget).2.osDesc = ∅ := by
  cases change with
  | mkdir path =>
      apply orUnchanged_keeps (fun gadget => gadget.osDesc = ∅) empty
      intro next made
      unfold Gadget.mkdir at made
      repeat' split at made
      all_goals cases made
      all_goals exact empty
  | echo value path =>
      apply orUnchanged_keeps (fun gadget => gadget.osDesc = ∅) empty
      intro next wrote
      unfold Gadget.write at wrote
      repeat' split at wrote
      all_goals cases wrote
      all_goals exact empty
  | ln target link =>
      apply orUnchanged_keeps (fun gadget => gadget.osDesc = ∅) empty
      intro next linked
      unfold Gadget.ln at linked
      split at linked
      · exact absurd rfl leaves
      · repeat' split at linked
        all_goals cases linked
        all_goals exact empty
      · cases linked
  | rm word => exact leaves.elim
  | rmdir word => exact leaves.elim

end BuildLinux.Concrete.UsbTree
