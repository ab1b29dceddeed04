/-
What a run of upgrade.sh leaves behind when one of its checks fails.

Extracting stays below the package directory, and nothing else is written before
a check has passed.  The checks of `all` are not made together: the file system
is written before the kernel image is looked at.  A run whose checks have passed
ends with the status of its last command, which may be a failed `reboot`.
-/

import BuildLinux.Concrete.UpgradeChecks

namespace BuildLinux.Concrete.UpgradeFailure

open ShellText UpgradePackage UpgradeChecks

/-- Neither below the package directory nor on the way to it. -/
def Outside (path : Path) : Prop := ¬ packageDir <+: path ∧ ¬ path <+: packageDir

instance (path : Path) : Decidable (Outside path) :=
  inferInstanceAs (Decidable (¬ packageDir <+: path ∧ ¬ path <+: packageDir))

structure StagedOnly (before after : World) : Prop where
  kernelPart : after.kernelPart = before.kernelPart
  node : ∀ path, Outside path → after.node path = before.node path

/-- The status is not zero, and an `exit 1` of the script has set it. -/
def CheckFailed (outcome : Outcome) : Prop := outcome.status ≠ 0 ∧ outcome.refused = true

instance (outcome : Outcome) : Decidable (CheckFailed outcome) :=
  inferInstanceAs (Decidable (outcome.status ≠ 0 ∧ outcome.refused = true))

variable {tools : Tools} {faults : Faults}

/-! ### Extracting -/

theorem stagedOnly_refl (world : World) : StagedOnly world world :=
  { kernelPart := rfl
    node := fun _ _ => rfl }

theorem StagedOnly.trans {first second third : World} (early : StagedOnly first second)
    (late : StagedOnly second third) : StagedOnly first third :=
  { kernelPart := late.kernelPart.trans early.kernelPart
    node := fun path outside => (late.node path outside).trans (early.node path outside) }

theorem stagedOnly_set {target : Path} (inside : ¬ Outside target) (world : World) (node : Node) :
    StagedOnly world (world.set target node) :=
  { kernelPart := rfl
    node := by
      intro path outside
      have differ : path ≠ target := by
        intro same
        exact inside (same ▸ outside)
      exact if_neg differ }

theorem stagedOnly_makeDirectories {parent rest : Path}
    (inside : ∀ front, front <+: rest → ¬ Outside (parent ++ front)) (world : World) :
    StagedOnly world (makeDirectories parent rest world).2 := by
  induction rest generalizing parent world with
  | nil => exact stagedOnly_refl world
  | cons name rest ih =>
      have here : ¬ Outside (parent ++ [name]) :=
        inside [name] (List.cons_prefix_cons.mpr ⟨rfl, List.nil_prefix⟩)
      have below : ∀ front, front <+: rest → ¬ Outside (parent ++ [name] ++ front) := by
        intro front isFront
        rw [List.append_assoc]
        exact inside (name :: front) (List.cons_prefix_cons.mpr ⟨rfl, isFront⟩)
      unfold makeDirectories
      split
      · exact (stagedOnly_set here world .directory).trans (ih below _)
      · exact ih below world
      · exact stagedOnly_refl world

theorem inside_packageDir (path : Path) : ¬ Outside (packageDir ++ path) :=
  fun outside => outside.1 (List.prefix_append packageDir path)

theorem stagedOnly_extractEntry (world : World) (entry : Entry) :
    StagedOnly world (extractEntry world entry) := by
  have directories (rest : Path) : StagedOnly world (makeDirectories packageDir rest world).2 :=
    stagedOnly_makeDirectories (fun front _ => inside_packageDir front) world
  unfold extractEntry
  split
  · exact directories entry.path
  · rename_i contents _
    have parents := directories entry.path.dropLast
    split
    · rename_i after made
      rw [made] at parents
      exact parents
    · rename_i after made
      rw [made] at parents
      split
      · exact parents
      · exact parents.trans
          (stagedOnly_set (inside_packageDir entry.path) after (.file contents))

theorem stagedOnly_extractEntries (entries : List Entry) (world : World) :
    StagedOnly world (entries.foldl extractEntry world) := by
  induction entries generalizing world with
  | nil => exact stagedOnly_refl world
  | cons entry rest ih => exact (stagedOnly_extractEntry world entry).trans (ih _)

theorem stagedOnly_tar (stops : Option Nat) (archive : Path) (world : World) :
    StagedOnly world (tar tools stops archive world) := by
  unfold tar
  split
  · split
    · exact stagedOnly_refl world
    · split
      · exact stagedOnly_extractEntries _ world
      · exact stagedOnly_extractEntries _ world
  · exact stagedOnly_refl world

theorem stagedOnly_mkdirs (world : World) : StagedOnly world (mkdirs faults world) := by
  have package : StagedOnly world (makeDirectories [] packageDir world).2 := by
    apply stagedOnly_makeDirectories
    exact fun front isFront outside => outside.2 isFront
  have overlay (before : World) : StagedOnly before (makeDirectories [] fsOverlayDir before).2 := by
    apply stagedOnly_makeDirectories
    intro front isFront outside
    -- A front of the overlay directory is this directory or a front of its parent.
    rcases List.prefix_concat_iff.mp (show front <+: packageDir ++ ["fs-overlay"] from isFront)
      with whole | above
    · exact outside.1 ⟨["fs-overlay"], whole.symm⟩
    · exact outside.2 above
  unfold mkdirs
  split
  · exact stagedOnly_refl world
  · split
    · rename_i after made
      rw [made] at package
      exact package
    · rename_i after made
      rw [made] at package
      split
      · exact package
      · exact package.trans (overlay after)

theorem stagedOnly_unpack (world : World) : StagedOnly world (unpack tools faults world) :=
  ((stagedOnly_mkdirs world).trans (stagedOnly_tar _ _ _)).trans (stagedOnly_tar _ _ _)

/-! ### Failed runs -/

theorem upgradeKernel_failed {copiedFrom : Option World} {world : World}
    (failed : (upgradeKernel tools faults copiedFrom world).refused = true) :
    (upgradeKernel tools faults copiedFrom world).after = world := by
  unfold upgradeKernel at failed ⊢
  split
  · rename_i verified
    rw [if_pos verified] at failed
    cases failed
  · rfl

theorem upgrade_failed_after {arguments : List String} {chosen : Mode}
    (is : mode arguments = some chosen) {world : World}
    (failed : (upgrade tools faults arguments world).refused = true) :
    (upgrade tools faults arguments world).after =
      if arguments = ["all"] ∧ fsVerified tools faults (unpack tools faults world) = true then
        copyOverlay (unpack tools faults world)
      else unpack tools faults world := by
  unfold mode at is
  split at is
  -- `kernel`, `fs`, `all`, and the usage error, which has no mode.
  · change (upgradeKernel tools faults none (unpack tools faults world)).refused = true at failed
    change (upgradeKernel tools faults none (unpack tools faults world)).after = _
    rw [if_neg fun both => absurd both.1 (by decide)]
    exact upgradeKernel_failed failed
  · unfold upgrade mode at failed ⊢
    cases verified : fsVerified tools faults (unpack tools faults world) with
    | false => simp [verified, refuse]
    | true => simp [verified] at failed
  · unfold upgrade mode at failed ⊢
    cases verified : fsVerified tools faults (unpack tools faults world) with
    | false => simp [verified, refuse]
    | true =>
        simp only [verified, if_true] at failed
        simp only [verified, if_true, and_self]
        exact upgradeKernel_failed failed
  · cases is

/-- A run with a failed check has written neither the kernel partition nor, outside the package
directory, anything but the copy that `all` makes of a verified file system. -/
theorem upgrade_failed_changes {arguments : List String} {world : World}
    (failed : CheckFailed (upgrade tools faults arguments world)) :
    (upgrade tools faults arguments world).after.kernelPart = world.kernelPart ∧
      (mode arguments = none → (upgrade tools faults arguments world).after = world) ∧
      ∀ path, Outside path →
        (upgrade tools faults arguments world).after.node path =
          if arguments = ["all"] ∧ fsVerified tools faults (unpack tools faults world) = true then
            ((unpack tools faults world).copied path).or (world.node path)
          else world.node path := by
  have staged : StagedOnly world (unpack tools faults world) := stagedOnly_unpack world
  cases is : mode arguments with
  | none =>
      have unchanged : (upgrade tools faults arguments world).after = world := by
        unfold upgrade
        rw [is]
        rfl
      have notAll : arguments ≠ ["all"] := by
        intro all
        rw [all] at is
        cases is
      rw [unchanged]
      exact ⟨rfl, fun _ => rfl, fun path _ => (if_neg fun both => notAll both.1).symm⟩
  | some chosen =>
      rw [upgrade_failed_after is failed.2]
      refine ⟨?_, by simp, fun path outside => ?_⟩
      · split
        · exact staged.kernelPart
        · exact staged.kernelPart
      · split
        · change ((unpack tools faults world).copied path).or
            ((unpack tools faults world).node path) = _
          rw [staged.node path outside]
        · exact staged.node path outside

/-! ### A package without a kernel image -/

def field (width : Nat) (text : String) : Text :=
  text.toList ++ List.replicate (width - text.length) (Char.ofNat 0)

/-- `fs-overlay/etc/nologin`, empty, as tar packs it. -/
def nologinArchive : Text :=
  field 100 "fs-overlay/etc/nologin" ++ field 8 "0000644" ++ field 8 "0000000" ++
    field 8 "0000000" ++ field 12 "00000000000" ++ field 12 "00000000000" ++ field 7 "012165" ++
    field 102 " 0" ++ field 6 "ustar" ++ field 1273 "00"

def noKernel : World :=
  { node := nodes
      [(["etc"], .directory), (["app"], .directory), (packageDir, .directory),
        (fsImage, .file nologinArchive),
        (rk3562Md5, .file "2890595dcd8842a50f6b63e350f7e02c  fs_overlay.tar\n".toList)]
    kernelPart := [] }

/-- The file system is updated, and then the kernel image is missing. -/
theorem all_updates_before_failing :
    ¬ (CheckFailed (upgrade nologinTools noFaults ["all"] noKernel) →
      (upgrade nologinTools noFaults ["all"] noKernel).after.kernelPart = noKernel.kernelPart ∧
        ∀ path, Outside path →
          (upgrade nologinTools noFaults ["all"] noKernel).after.node path =
            noKernel.node path) := by
  intro unmodified
  have same := (unmodified (by decide)).2 ["etc", "nologin"] (by decide)
  revert same
  decide

theorem upgrade_failed_changes_noKernel :
    CheckFailed (upgrade nologinTools noFaults ["all"] noKernel) ∧
      (upgrade nologinTools noFaults ["all"] noKernel).after.kernelPart = [] ∧
      (upgrade nologinTools noFaults ["all"] noKernel).after.node ["etc", "nologin"] =
        some (.file []) := by
  have failed : CheckFailed (upgrade nologinTools noFaults ["all"] noKernel) := by decide
  have changes := upgrade_failed_changes failed
  exact ⟨failed, changes.1, (changes.2.2 ["etc", "nologin"] (by decide)).trans (by decide)⟩

end BuildLinux.Concrete.UpgradeFailure
