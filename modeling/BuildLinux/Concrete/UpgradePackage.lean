/-
The upgrade script, upgrade.sh, step by step.

The world is a file system and the kernel partition.  md5sum and the format of
tar archives are tools given from outside; which of the commands fail is given
by a record of faults, and `tar` may fail after any number of entries.  There are
no symbolic links, in the archives or in the file system: through one, `tar` and
`cp` write where it leads.  File attributes are left out, `cp` and `dd` succeed,
and `cp` reads its sources as they are before it writes.
-/

import BuildLinux.ShellText

namespace BuildLinux.Concrete.UpgradePackage

open ShellText

abbrev Path := List String

inductive Node where
  | directory
  | file (contents : Text)
  deriving DecidableEq

structure World where
  node : Path → Option Node
  /-- `/dev/mmcblk0p3`. -/
  kernelPart : Text

structure Digest where
  text : Text
  nonempty : text ≠ []
  letters : ∀ letter ∈ text, isBlank letter = false
  oneLine : '\n' ∉ text

structure Entry where
  path : Path
  contents : Option Text
  deriving DecidableEq

structure Tools where
  md5 : Text → Digest
  untar : Text → List Entry

structure Faults where
  mkdirPackage : Bool
  mkdirOverlay : Bool
  /-- How many entries are extracted before the failure, if there is one. -/
  tarPackage : Option Nat
  tarImage : Option Nat
  grepFs : Bool
  md5sumFs : Bool
  grepKernel : Bool
  md5sumKernel : Bool
  /-- The status of the last command, `reboot -f` or a message. -/
  last : Nat

/-! ### The file system -/

def kernelImage : Path := ["app", "rk3562", "rk3562.itb"]

def fsImage : Path := ["app", "rk3562", "fs_overlay.tar"]

def rk3562Md5 : Path := ["app", "md5sum"]

def rk3562Tar : Path := ["app", "rk3562.tar"]

def packageDir : Path := ["app", "rk3562"]

def fsOverlayDir : Path := ["app", "rk3562", "fs-overlay"]

namespace World

def set (world : World) (path : Path) (node : Node) : World :=
  { world with node := fun other => if other = path then some node else world.node other }

def contents (world : World) (path : Path) : Option Text :=
  match world.node path with
  | some (.file contents) => some contents
  | _ => none

def isDirectory (world : World) (path : Path) : Bool :=
  match world.node path with
  | some .directory => true
  | _ => false

end World

def makeDirectories : Path → Path → World → Bool × World
  | _, [], world => (true, world)
  | parent, name :: rest, world =>
      match world.node (parent ++ [name]) with
      | none => makeDirectories (parent ++ [name]) rest (world.set (parent ++ [name]) .directory)
      | some .directory => makeDirectories (parent ++ [name]) rest world
      | some (.file _) => (false, world)

/-! ### Extracting -/

/-- `mkdir -p /app/rk3562 && mkdir -p /app/rk3562/fs-overlay` -/
def mkdirs (faults : Faults) (world : World) : World :=
  if faults.mkdirPackage then world
  else
    match makeDirectories [] packageDir world with
    | (false, after) => after
    | (true, after) =>
        if faults.mkdirOverlay then after else (makeDirectories [] fsOverlayDir after).2

/-- An entry that is in the way of an existing file or directory is skipped. -/
def extractEntry (world : World) (entry : Entry) : World :=
  match entry.contents with
  | none => (makeDirectories packageDir entry.path world).2
  | some contents =>
      match makeDirectories packageDir entry.path.dropLast world with
      | (false, after) => after
      | (true, after) =>
          match after.node (packageDir ++ entry.path) with
          | some .directory => after
          | _ => after.set (packageDir ++ entry.path) (.file contents)

/-- `tar -x -f archive -C /app/rk3562` -/
def tar (tools : Tools) (stops : Option Nat) (archive : Path) (world : World) : World :=
  if world.isDirectory packageDir then
    match world.contents archive with
    | none => world
    | some contents =>
        match stops with
        | none => (tools.untar contents).foldl extractEntry world
        | some count => ((tools.untar contents).take count).foldl extractEntry world
  else world

def unpackPackage (tools : Tools) (faults : Faults) (world : World) : World :=
  tar tools faults.tarPackage rk3562Tar (mkdirs faults world)

def unpack (tools : Tools) (faults : Faults) (world : World) : World :=
  tar tools faults.tarImage fsImage (unpackPackage tools faults world)

/-! ### Where extracted files come from -/

theorem World.contents_eq_some {world : World} {path : Path} {contents : Text} :
    world.contents path = some contents ↔ world.node path = some (.file contents) := by
  unfold World.contents
  cases world.node path with
  | none =>
      constructor
      · exact fun impossible => nomatch impossible
      · exact fun impossible => nomatch impossible
  | some node =>
      cases node with
      | directory =>
          constructor
          · exact fun impossible => nomatch impossible
          · exact fun impossible => nomatch impossible
      | file present =>
          constructor
          · exact fun same => by rw [Option.some.inj same]
          · exact fun same => by rw [Node.file.inj (Option.some.inj same)]

theorem set_file {world : World} {target path : Path} {node : Node} {contents : Text}
    (found : (world.set target node).contents path = some contents) :
    (path = target ∧ node = .file contents) ∨ world.contents path = some contents := by
  rw [World.contents_eq_some] at found
  unfold World.set at found
  dsimp only at found
  split at found
  · rename_i same
    exact Or.inl ⟨same, Option.some.inj found⟩
  · exact Or.inr (World.contents_eq_some.mpr found)

theorem makeDirectories_file {parent rest path : Path} {world : World} {contents : Text}
    (found : (makeDirectories parent rest world).2.contents path = some contents) :
    world.contents path = some contents := by
  induction rest generalizing parent world with
  | nil => exact found
  | cons name rest ih =>
      unfold makeDirectories at found
      split at found
      · rcases set_file (ih found) with ⟨_, impossible⟩ | before
        · cases impossible
        · exact before
      · exact ih found
      · exact found

theorem extractEntry_file {world : World} {entry : Entry} {path : Path} {contents : Text}
    (found : (extractEntry world entry).contents path = some contents) :
    world.contents path = some contents ∨
      (path = packageDir ++ entry.path ∧ entry.contents = some contents) := by
  unfold extractEntry at found
  split at found
  · exact Or.inl (makeDirectories_file found)
  · rename_i new isFile
    have directories := @makeDirectories_file packageDir entry.path.dropLast path world contents
    split at found
    · rename_i after made
      rw [made] at directories
      exact Or.inl (directories found)
    · rename_i after made
      rw [made] at directories
      split at found
      · exact Or.inl (directories found)
      · rcases set_file found with ⟨same, node⟩ | before
        · exact Or.inr ⟨same, isFile.trans (congrArg some (Node.file.inj node))⟩
        · exact Or.inl (directories before)

theorem extractEntries_file {entries : List Entry} {world : World} {path : Path} {contents : Text}
    (found : (entries.foldl extractEntry world).contents (packageDir ++ path) = some contents) :
    world.contents (packageDir ++ path) = some contents ∨
      { path := path, contents := some contents } ∈ entries := by
  induction entries generalizing world with
  | nil => exact Or.inl found
  | cons entry rest ih =>
      rcases ih found with before | member
      · rcases extractEntry_file before with earlier | ⟨same, isFile⟩
        · exact Or.inl earlier
        · cases entry with
          | mk entryPath entryContents =>
              have samePath : path = entryPath := List.append_cancel_left same
              change entryContents = some contents at isFile
              rw [samePath, isFile]
              exact Or.inr List.mem_cons_self
      · exact Or.inr (List.mem_cons_of_mem entry member)

/-- A file below the package directory was there before, or the archive has it. -/
theorem tar_file {tools : Tools} {stops : Option Nat} {archive path : Path} {world : World}
    {contents : Text}
    (found : (tar tools stops archive world).contents (packageDir ++ path) = some contents) :
    world.contents (packageDir ++ path) = some contents ∨
      ∃ text, world.contents archive = some text ∧
        { path := path, contents := some contents } ∈ tools.untar text := by
  unfold tar at found
  split at found
  · split at found
    · exact Or.inl found
    · rename_i text readable
      split at found
      · rcases extractEntries_file found with before | member
        · exact Or.inl before
        · exact Or.inr ⟨text, readable, member⟩
      · rcases extractEntries_file found with before | member
        · exact Or.inl before
        · exact Or.inr ⟨text, readable, List.mem_of_mem_take member⟩
  · exact Or.inl found

/-! ### Checking -/

def manifestLines (world : World) (pattern : String) : List Text :=
  match world.contents rk3562Md5 with
  | none => []
  | some manifest => (lines manifest).filter (selects pattern.toList)

/-- `$(grep pattern "$RK3562_MD5" | awk '{print $1}')` -/
def expected (fails : Bool) (pattern : String) (world : World) : Text :=
  substitution (if fails then [] else (manifestLines world pattern).map firstField)

def pathText (path : Path) : Text := path.flatMap fun name => '/' :: name.toList

/-- `$(md5sum image | awk '{print $1}')` -/
def actual (tools : Tools) (fails : Bool) (image : Path) (world : World) : Text :=
  substitution (match if fails then none else world.contents image with
    | none => []
    | some contents => [firstField ((tools.md5 contents).text ++ ' ' :: ' ' :: pathText image)])

def fsVerified (tools : Tools) (faults : Faults) (world : World) : Bool :=
  world.isDirectory fsOverlayDir &&
    expected faults.grepFs "fs_overlay.tar" world == actual tools faults.md5sumFs fsImage world

def kernelVerified (tools : Tools) (faults : Faults) (world : World) : Bool :=
  (world.contents kernelImage).isSome &&
    expected faults.grepKernel "rk3562.itb" world ==
      actual tools faults.md5sumKernel kernelImage world

/-! ### Writing -/

def hidden (name : String) : Bool := name.toList.head? == some '.'

/-- A file stands where the path needs a directory. -/
def World.blocked (world : World) (path : Path) : Bool :=
  path.dropLast.inits.any fun parent => (world.contents parent).isSome

/-- What `cp -a ${FS_OVERLAY_DIR}/* /` writes at a path. -/
def World.copied (world : World) : Path → Option Node
  | [] => none
  | top :: rest =>
      if hidden top ∨ world.blocked (top :: rest) then none
      else
        match world.node (fsOverlayDir ++ top :: rest), world.node (top :: rest) with
        -- `cp` does not overwrite a directory by a file.
        | some (.file _), some .directory => none
        | some (.file contents), _ => some (.file contents)
        | some .directory, none => some .directory
        | _, _ => none

theorem World.copied_file {world : World} {path : Path} {contents : Text}
    (copied : world.copied path = some (.file contents)) :
    world.contents (fsOverlayDir ++ path) = some contents := by
  unfold World.copied at copied
  split at copied
  · cases copied
  · split at copied
    · cases copied
    · split at copied
      · cases copied
      · rename_i isFile _
        exact World.contents_eq_some.mpr (isFile.trans copied)
      · cases copied
      · cases copied

def copyOverlay (world : World) : World :=
  { world with node := fun path => (world.copied path).or (world.node path) }

/-- `dd` leaves what lies behind the image in the partition. -/
def flash (world : World) : World :=
  match world.contents kernelImage with
  | none => world
  | some image => { world with kernelPart := image ++ world.kernelPart.drop image.length }

/-! ### The script -/

structure Mode where
  kernel : Bool
  fs : Bool

def mode : List String → Option Mode
  | ["kernel"] => some { kernel := true, fs := false }
  | ["fs"] => some { kernel := false, fs := true }
  | ["all"] => some { kernel := true, fs := true }
  | _ => none

/-- The end of a run, with the worlds in which `cp` and `dd` were started. -/
structure Outcome where
  status : Nat
  /-- The run has ended in an `exit 1` of the script. -/
  refused : Bool
  after : World
  copiedFrom : Option World
  flashedFrom : Option World

def upgradeKernel (tools : Tools) (faults : Faults) (copiedFrom : Option World) (world : World) :
    Outcome :=
  if kernelVerified tools faults world then
    { status := faults.last
      refused := false
      after := flash world
      copiedFrom := copiedFrom
      flashedFrom := some world }
  else
    { status := 1
      refused := true
      after := world
      copiedFrom := copiedFrom
      flashedFrom := none }

/-- The usage error, or a check that fails before anything is copied. -/
def refuse (world : World) : Outcome :=
  { status := 1, refused := true, after := world, copiedFrom := none, flashedFrom := none }

def upgrade (tools : Tools) (faults : Faults) (arguments : List String) (world : World) :
    Outcome :=
  match mode arguments with
  | none => refuse world
  | some chosen =>
      let staged := unpack tools faults world
      if chosen.fs then
        if fsVerified tools faults staged then
          if chosen.kernel then upgradeKernel tools faults (some staged) (copyOverlay staged)
          else
            { status := faults.last
              refused := false
              after := copyOverlay staged
              copiedFrom := some staged
              flashedFrom := none }
        else refuse staged
      else upgradeKernel tools faults none staged

end BuildLinux.Concrete.UpgradePackage
