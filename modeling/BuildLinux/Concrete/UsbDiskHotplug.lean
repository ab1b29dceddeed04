/-
The handler of USB disks, udisk_action.sh, and the partitions of other disks.

The directories below `/mnt/usbdisk` are kept with the file system mounted on
each of them, if any.  Removing a device unmounts every directory whose name
begins with the device name and then deletes all `sd*` directories recursively,
through the mounts that are left.  Another partition survives exactly when the
first pattern misses its name and the second one misses it or finds nothing to
delete.
-/

import Mathlib.Data.List.AList
import BuildLinux.PathnameExpansion

namespace BuildLinux.Concrete.UsbDiskHotplug

open PathnameExpansion

abbrev Name := String

structure FileSystem where
  writable : Bool
  files : List (String × List UInt8)
  deriving DecidableEq

/-- The directories below `/mnt/usbdisk` and what is mounted on them. -/
abbrev Usbdisk := AList fun _ : Name => Option FileSystem

/-- A kernel device name, the value of `MDEV`. -/
structure DeviceName where
  name : Name
  nonempty : name ≠ ""
  plain : Plain name

def mountedAt (disks : Usbdisk) (name : Name) : Option FileSystem :=
  (disks.lookup name).join

def glob (disks : Usbdisk) (pattern : String) : List Name :=
  (expand (disks.keys.map fun name => [name]) [pattern]).flatten

def updateEach (change : Option FileSystem → Option (Option FileSystem)) :
    List Name → Usbdisk → Usbdisk
  | [], disks => disks
  | name :: rest, disks =>
      match disks.lookup name with
      | none => updateEach change rest disks
      | some directory =>
          match change directory with
          | none => updateEach change rest (disks.erase name)
          | some after => updateEach change rest (disks.insert name after)

/-- `rm -r` empties what it may write. -/
def FileSystem.wiped (system : FileSystem) : FileSystem :=
  if system.writable then { system with files := [] } else system

/-- A mount point is busy and stays; a directory without a mount goes. -/
def rmDirectory : Option FileSystem → Option (Option FileSystem)
  | none => none
  | some system => some (some system.wiped)

/-- `umount -l`, which fails only where nothing is mounted. -/
def umountDirectory : Option FileSystem → Option (Option FileSystem) := fun _ => some none

/-- `umount -l /mnt/usbdisk/${MDEV}*`, then `rm -r /mnt/usbdisk/sd*`. -/
def remove (device : DeviceName) (disks : Usbdisk) : Usbdisk :=
  let unmounted := updateEach umountDirectory (glob disks (device.name ++ "*")) disks
  updateEach rmDirectory (glob unmounted ("sd" ++ "*")) unmounted

/-! ### Adding -/

inductive Tool where
  | mountVfat
  | ntfs3g
  | mountNtfs
  | mountExfat
  | mount

structure Insertion where
  node : Bool
  format : List String
  mkdirs : Bool
  hasNtfs3g : Bool
  mounts : Tool → Option FileSystem

/-- A test on an unquoted `FORMAT` of no or several words is an error, hence false. -/
def tool (insertion : Insertion) : Option Tool :=
  match insertion.format with
  | [format] =>
      if format = "vfat" then some .mountVfat
      else if format = "ntfs" then
        if insertion.hasNtfs3g then some .ntfs3g else some .mountNtfs
      else if format = "exfat" then some .mountExfat
      else some .mount
  | _ => none

def makeMountPath (device : DeviceName) (insertion : Insertion) (disks : Usbdisk) : Usbdisk :=
  if insertion.format.length = 1 ∧ device.name ∉ disks ∧ insertion.mkdirs = true then
    disks.insert device.name none
  else disks

def add (device : DeviceName) (insertion : Insertion) (disks : Usbdisk) : Usbdisk :=
  let made := makeMountPath device insertion disks
  match (tool insertion).bind insertion.mounts, made.lookup device.name with
  | some system, some none => made.insert device.name (some system)
  | _, _ => made

/-- udisk_action.sh with the variables `ACTION` and `MDEV`. -/
def udiskAction (action : String) (device : DeviceName) (insertion : Insertion)
    (disks : Usbdisk) : Usbdisk :=
  let added := if action = "add" ∧ insertion.node = true then add device insertion disks else disks
  if action = "remove" then remove device added else added

/-! ### Partitions of other disks -/

def isNumber (digits : List Char) : Bool :=
  !digits.isEmpty && digits.all Char.isDigit

/-- The kernel puts a `p` between a disk name that ends in a digit and the number. -/
def isPartitionOf (name disk : Name) : Bool :=
  disk.toList.isPrefixOf name.toList &&
    match disk.toList.getLast?.any Char.isDigit, name.toList.drop disk.toList.length with
    | true, letter :: number => letter == 'p' && isNumber number
    | true, [] => false
    | false, number => isNumber number

def Foreign (device : DeviceName) (name : Name) : Prop :=
  name ≠ device.name ∧ isPartitionOf name device.name = false

def Untouched (device : DeviceName) (insertion : Insertion) (disks : Usbdisk) : Prop :=
  ∀ name system, mountedAt disks name = some system → Foreign device name →
    mountedAt (udiskAction "remove" device insertion disks) name = some system

/-- No foreign partition has a name that begins with the device name, and one
whose name begins with "sd" has nothing that can be deleted. -/
def Clear (device : DeviceName) (disks : Usbdisk) : Prop :=
  ∀ name system, mountedAt disks name = some system → Foreign device name →
    ¬ device.name.toList <+: name.toList ∧
      ("sd".toList <+: name.toList → system.writable = false ∨ system.files = [])

theorem lookup_updateEach {change : Option FileSystem → Option (Option FileSystem)}
    (again : ∀ directory, (change directory).bind change = change directory)
    (names : List Name) (disks : Usbdisk) (name : Name) :
    (updateEach change names disks).lookup name =
      if name ∈ names then (disks.lookup name).bind change else disks.lookup name := by
  induction names generalizing disks with
  | nil => rfl
  | cons first rest ih =>
      -- The name may come again in the rest, where its change has no further effect.
      have step (after : Usbdisk) (atFirst : after.lookup first = (disks.lookup first).bind change)
          (others : ∀ other, other ≠ first → after.lookup other = disks.lookup other) :
          (updateEach change rest after).lookup name =
            if name ∈ first :: rest then (disks.lookup name).bind change
            else disks.lookup name := by
        rw [ih]
        by_cases same : name = first
        · subst same
          rw [atFirst, if_pos List.mem_cons_self, Option.bind_assoc]
          simp only [again, ite_self]
        · rw [others name same]
          simp only [List.mem_cons, same, false_or]
      rw [updateEach]
      cases found : disks.lookup first with
      | none =>
          apply step disks _ fun _ _ => rfl
          rw [found]
          rfl
      | some directory =>
          dsimp only
          cases changed : change directory with
          | none =>
              apply step (disks.erase first) _ fun other differ => AList.lookup_erase_ne differ
              rw [AList.lookup_erase, found, Option.bind_some, changed]
          | some after =>
              apply step (disks.insert first after) _ fun other differ =>
                AList.lookup_insert_ne differ
              rw [AList.lookup_insert, found, Option.bind_some, changed]

theorem mem_glob (disks : Usbdisk) {plain : String} (isPlain : Plain plain)
    (nonempty : plain ≠ "") {name : Name} (present : name ∈ disks) :
    name ∈ glob disks (plain ++ "*") ↔ plain.toList <+: name.toList := by
  have inKeys : [name] ∈ disks.keys.map fun name => [name] :=
    List.mem_map.mpr ⟨name, AList.mem_keys.mp present, rfl⟩
  rw [← mem_expand_star isPlain nonempty inKeys]
  unfold glob
  rw [List.mem_flatten]
  constructor
  · rintro ⟨path, found, inPath⟩
    have single : ∃ other, path = [other] := by
      rcases mem_expand found with listed | itself
      · obtain ⟨other, _, same⟩ := List.mem_map.mp listed
        exact ⟨other, same.symm⟩
      · exact ⟨_, itself⟩
    obtain ⟨other, same⟩ := single
    rw [same, List.mem_singleton] at inPath
    rw [inPath, ← same]
    exact found
  · exact fun found => ⟨[name], found, List.mem_singleton_self name⟩

/-! ### What a removal leaves -/

theorem umountDirectory_again (directory : Option FileSystem) :
    (umountDirectory directory).bind umountDirectory = umountDirectory directory :=
  rfl

theorem FileSystem.wiped_wiped (system : FileSystem) : system.wiped.wiped = system.wiped := by
  obtain ⟨writable, files⟩ := system
  cases writable with
  | false => rfl
  | true => rfl

theorem rmDirectory_again (directory : Option FileSystem) :
    (rmDirectory directory).bind rmDirectory = rmDirectory directory := by
  cases directory with
  | none => rfl
  | some system => exact congrArg (fun after => some (some after)) system.wiped_wiped

theorem wiped_same (system : FileSystem) :
    system.wiped = system ↔ system.writable = false ∨ system.files = [] := by
  obtain ⟨writable, files⟩ := system
  cases writable with
  | false => simp [FileSystem.wiped]
  | true => simp [FileSystem.wiped, eq_comm]

def Unmounts (device : DeviceName) (name : Name) : Prop := device.name.toList <+: name.toList

def Deletes (name : Name) : Prop := "sd".toList <+: name.toList

instance (device : DeviceName) (name : Name) : Decidable (Unmounts device name) :=
  inferInstanceAs (Decidable (_ <+: _))

instance (name : Name) : Decidable (Deletes name) :=
  inferInstanceAs (Decidable (_ <+: _))

theorem lookup_remove (device : DeviceName) (disks : Usbdisk) {name : Name}
    {directory : Option FileSystem} (found : disks.lookup name = some directory) :
    (remove device disks).lookup name =
      let left := if Unmounts device name then none else directory
      if Deletes name then rmDirectory left else some left := by
  have present : name ∈ disks := AList.lookup_isSome.mp (by rw [found]; rfl)
  have unmounted : (updateEach umountDirectory (glob disks (device.name ++ "*")) disks).lookup
      name = some (if Unmounts device name then none else directory) := by
    rw [lookup_updateEach umountDirectory_again, found]
    simp only [mem_glob disks device.plain device.nonempty present]
    change (if Unmounts device name then _ else _) = _
    split <;> rfl
  have stillPresent :
      name ∈ updateEach umountDirectory (glob disks (device.name ++ "*")) disks :=
    AList.lookup_isSome.mp (by rw [unmounted]; rfl)
  have plainSd : Plain "sd" := by decide
  unfold remove
  dsimp only
  rw [lookup_updateEach rmDirectory_again, unmounted]
  simp only [mem_glob _ plainSd (by decide) stillPresent]
  change (if Deletes name then _ else _) = _
  split <;> rfl

theorem mountedAt_remove (device : DeviceName) (disks : Usbdisk) {name : Name}
    {system : FileSystem} (mounted : mountedAt disks name = some system) :
    mountedAt (remove device disks) name =
      if Unmounts device name then none
      else if Deletes name then some system.wiped else some system := by
  have found : disks.lookup name = some (some system) := Option.join_eq_some_iff.mp mounted
  unfold mountedAt
  rw [lookup_remove device disks found]
  by_cases unmounts : Unmounts device name
  · by_cases deletes : Deletes name
    · simp [unmounts, deletes, rmDirectory]
    · simp [unmounts, deletes]
  · by_cases deletes : Deletes name
    · simp [unmounts, deletes, rmDirectory]
    · simp [unmounts, deletes]

/-- A removal leaves the foreign partitions alone exactly when the disks are clear. -/
theorem remove_untouched_iff (device : DeviceName) (insertion : Insertion) (disks : Usbdisk) :
    Untouched device insertion disks ↔ Clear device disks := by
  have notAdd : ¬("remove" = "add" ∧ insertion.node = true) := fun both => absurd both.1 (by decide)
  have removes : udiskAction "remove" device insertion disks = remove device disks := by
    unfold udiskAction
    rw [if_neg notAdd, if_pos rfl]
  have each {name : Name} {system : FileSystem} (mounted : mountedAt disks name = some system) :
      mountedAt (remove device disks) name = some system ↔
        ¬ Unmounts device name ∧
          (Deletes name → system.writable = false ∨ system.files = []) := by
    rw [mountedAt_remove device disks mounted, ← wiped_same]
    by_cases unmounts : Unmounts device name
    · simp [unmounts]
    · by_cases deletes : Deletes name
      · simp [unmounts, deletes]
      · simp [unmounts, deletes]
  unfold Untouched Clear
  rw [removes]
  constructor
  · exact fun untouched name system mounted foreign =>
      (each mounted).mp (untouched name system mounted foreign)
  · exact fun clear name system mounted foreign =>
      (each mounted).mpr (clear name system mounted foreign)

/-- Two sticks are plugged in and one of them is pulled out. -/
def pulled : DeviceName := { name := "sdb1", nonempty := by decide, plain := by decide }

def photos : FileSystem := { writable := true, files := [("photo.jpg", [0xff, 0xd8])] }

def twoSticks : Usbdisk := (AList.singleton "sda1" (some photos)).insert "sdb1" (some photos)

def noInsertion : Insertion :=
  { node := false
    format := []
    mkdirs := true
    hasNtfs3g := false
    mounts := fun _ => none }

theorem remove_deletes_other : ¬ Untouched pulled noInsertion twoSticks := by
  intro untouched
  have foreign : Foreign pulled "sda1" := by
    constructor
    · decide
    · decide
  have kept := untouched "sda1" photos rfl foreign
  have emptied : mountedAt (udiskAction "remove" pulled noInsertion twoSticks) "sda1" =
      some { photos with files := [] } := by decide
  rw [emptied] at kept
  revert kept
  decide

end BuildLinux.Concrete.UsbDiskHotplug
