/-
What the checks of upgrade.sh establish before it writes.

Two texts are compared, and two empty ones are equal.  A check that passes after
md5sum has printed a digest shows that the manifest names it; one that passes
without shows nothing.  The copied files were extracted before: what the
extraction has put there belongs to the verified archive, what lay there does not.
-/

import BuildLinux.Concrete.UpgradePackage

namespace BuildLinux.Concrete.UpgradeChecks

open ShellText UpgradePackage

variable (tools : Tools) (faults : Faults)

/-- A manifest line that `grep` finds with this pattern begins with the digest. -/
def ManifestNames (world : World) (pattern : String) (digest : Digest) : Prop :=
  ∃ line ∈ manifestLines world pattern, firstField line = digest.text

def FromArchive (before : World) (path : Path) (contents : Text) : Prop :=
  ∃ archive, before.contents fsImage = some archive ∧
    { path := "fs-overlay" :: path, contents := some contents } ∈ tools.untar archive

/-- Every file that `cp` writes is an entry of an archive the manifest names. -/
def AuthenticCopy (before : World) : Prop :=
  ∀ path contents, before.copied path = some (.file contents) →
    ∃ archive, before.contents fsImage = some archive ∧
      ManifestNames before "fs_overlay.tar" (tools.md5 archive) ∧
      { path := "fs-overlay" :: path, contents := some contents } ∈ tools.untar archive

def AuthenticFlash (before : World) : Prop :=
  ∃ image, before.contents kernelImage = some image ∧
    (flash before).kernelPart = image ++ before.kernelPart.drop image.length ∧
    ManifestNames before "rk3562.itb" (tools.md5 image)

def Authentic (outcome : Outcome) : Prop :=
  (∀ before, outcome.copiedFrom = some before → AuthenticCopy tools before) ∧
    ∀ before, outcome.flashedFrom = some before → AuthenticFlash tools before

/-- A file to be copied that was already there when the archive was extracted, or
any file if the archive has replaced itself then, is an entry of the archive all
the same; and md5sum could read the archive, or the manifest names it. -/
def TrustedCopy (packed before : World) : Prop :=
  ∀ path contents, before.copied path = some (.file contents) →
    (packed.contents (fsOverlayDir ++ path) = some contents ∨
        before.contents fsImage ≠ packed.contents fsImage →
      FromArchive tools before path contents) ∧
    (faults.md5sumFs = true → ∀ archive, before.contents fsImage = some archive →
      ManifestNames before "fs_overlay.tar" (tools.md5 archive))

def TrustedFlash (before : World) : Prop :=
  faults.md5sumKernel = true → ∀ image, before.contents kernelImage = some image →
    ManifestNames before "rk3562.itb" (tools.md5 image)

def beforeKernel (chosen : Mode) (staged : World) : World :=
  if chosen.fs then copyOverlay staged else staged

/-- Where the checks pass, what they leave open is in order. -/
def Trusted (arguments : List String) (world : World) : Prop :=
  ∀ chosen, mode arguments = some chosen →
    let staged := unpack tools faults world
    (chosen.fs = true → fsVerified tools faults staged = true →
      TrustedCopy tools faults (unpackPackage tools faults world) staged) ∧
    (chosen.kernel = true → (chosen.fs = true → fsVerified tools faults staged = true) →
      kernelVerified tools faults (beforeKernel chosen staged) = true →
        TrustedFlash tools faults (beforeKernel chosen staged))

variable {tools faults}

/-! ### Comparing digests -/

theorem actual_digest {image : Path} {world : World} {contents : Text}
    (found : world.contents image = some contents) :
    actual tools false image world = (tools.md5 contents).text := by
  unfold actual
  rw [if_neg Bool.false_ne_true, found]
  dsimp only
  rw [firstField_word _ _ (tools.md5 contents).letters (tools.md5 contents).nonempty]
  exact substitution_word (tools.md5 contents).oneLine

theorem manifestLine_oneLine {world : World} {pattern : String} {line : Text}
    (member : line ∈ manifestLines world pattern) : '\n' ∉ line := by
  unfold manifestLines at member
  split at member
  · exact absurd member List.not_mem_nil
  · exact newline_not_mem_lines (List.mem_filter.mp member).1

theorem names_of_expected {fails : Bool} {pattern : String} {world : World} {digest : Digest}
    (same : expected fails pattern world = digest.text) : ManifestNames world pattern digest := by
  unfold expected at same
  obtain ⟨rest, output⟩ := substitution_first same digest.nonempty digest.oneLine (by
    intro line member
    split at member
    · exact absurd member List.not_mem_nil
    · obtain ⟨whole, inManifest, field⟩ := List.mem_map.mp member
      rw [← field]
      exact newline_not_mem_firstField (manifestLine_oneLine inManifest))
  split at output
  · cases output
  · obtain ⟨line, member, field⟩ := List.mem_map.mp
      (show digest.text ∈ (manifestLines world pattern).map firstField by
        rw [output]
        exact List.mem_cons_self)
    exact ⟨line, member, field⟩

theorem fsVerified_names {world : World} {archive : Text}
    (verified : fsVerified tools faults world = true) (readable : faults.md5sumFs = false)
    (found : world.contents fsImage = some archive) :
    ManifestNames world "fs_overlay.tar" (tools.md5 archive) := by
  have same := beq_iff_eq.mp (Bool.and_eq_true_iff.mp verified).2
  rw [readable, actual_digest found] at same
  exact names_of_expected same

theorem kernelVerified_names {world : World} {image : Text}
    (verified : kernelVerified tools faults world = true)
    (readable : faults.md5sumKernel = false) (found : world.contents kernelImage = some image) :
    ManifestNames world "rk3562.itb" (tools.md5 image) := by
  have same := beq_iff_eq.mp (Bool.and_eq_true_iff.mp verified).2
  rw [readable, actual_digest found] at same
  exact names_of_expected same

/-! ### What is copied and flashed -/

theorem fromArchive_of_extracted {world : World} {path : Path} {contents : Text}
    (copied : (unpack tools faults world).copied path = some (.file contents))
    (new : (unpackPackage tools faults world).contents (fsOverlayDir ++ path) ≠ some contents)
    (kept : (unpack tools faults world).contents fsImage =
      (unpackPackage tools faults world).contents fsImage) :
    FromArchive tools (unpack tools faults world) path contents := by
  have present : (tar tools faults.tarImage fsImage (unpackPackage tools faults world)).contents
      (packageDir ++ "fs-overlay" :: path) = some contents := World.copied_file copied
  rcases tar_file present with before | ⟨archive, found, entry⟩
  · exact absurd before new
  · exact ⟨archive, kept.trans found, entry⟩

theorem authenticCopy_iff {world : World}
    (verified : fsVerified tools faults (unpack tools faults world) = true) :
    AuthenticCopy tools (unpack tools faults world) ↔
      TrustedCopy tools faults (unpackPackage tools faults world)
        (unpack tools faults world) := by
  constructor
  · intro authentic path contents copied
    obtain ⟨archive, found, named, entry⟩ := authentic path contents copied
    refine ⟨fun _ => ⟨archive, found, entry⟩, fun _ other foundOther => ?_⟩
    rw [found] at foundOther
    rw [← Option.some.inj foundOther]
    exact named
  · intro trusted path contents copied
    obtain ⟨foreign, readable⟩ := trusted path contents copied
    have fromArchive : FromArchive tools (unpack tools faults world) path contents := by
      -- A new file comes from the archive as it was; the others are trusted.
      by_cases old : (unpackPackage tools faults world).contents (fsOverlayDir ++ path) =
          some contents
      · exact foreign (Or.inl old)
      · by_cases kept : (unpack tools faults world).contents fsImage =
            (unpackPackage tools faults world).contents fsImage
        · exact fromArchive_of_extracted copied old kept
        · exact foreign (Or.inr kept)
    obtain ⟨archive, found, entry⟩ := fromArchive
    refine ⟨archive, found, ?_, entry⟩
    cases failed : faults.md5sumFs with
    | true => exact readable failed archive found
    | false => exact fsVerified_names verified failed found

theorem authenticFlash_iff {before : World} (verified : kernelVerified tools faults before = true) :
    AuthenticFlash tools before ↔ TrustedFlash tools faults before := by
  obtain ⟨image, found⟩ := Option.isSome_iff_exists.mp (Bool.and_eq_true_iff.mp verified).1
  constructor
  · rintro ⟨authentic, same, _, named⟩ _ other foundOther
    rw [same] at foundOther
    rw [← Option.some.inj foundOther]
    exact named
  · intro trusted
    refine ⟨image, found, ?_, ?_⟩
    · unfold flash
      rw [found]
    · cases readable : faults.md5sumKernel with
      | true => exact trusted readable image found
      | false => exact kernelVerified_names verified readable found

theorem mode_cases {arguments : List String} {chosen : Mode} (is : mode arguments = some chosen) :
    chosen = { kernel := true, fs := false } ∨ chosen = { kernel := false, fs := true } ∨
      chosen = { kernel := true, fs := true } := by
  unfold mode at is
  split at is
  · exact Or.inl (Option.some.inj is).symm
  · exact Or.inr (Or.inl (Option.some.inj is).symm)
  · exact Or.inr (Or.inr (Option.some.inj is).symm)
  · cases is

theorem upgrade_copiedFrom {arguments : List String} {chosen : Mode}
    (is : mode arguments = some chosen) (world : World) :
    (upgrade tools faults arguments world).copiedFrom =
      if chosen.fs = true ∧ fsVerified tools faults (unpack tools faults world) = true then
        some (unpack tools faults world)
      else none := by
  unfold upgrade upgradeKernel
  rw [is]
  dsimp only
  cases fs : chosen.fs with
  | false =>
      simp only [Bool.false_eq_true, false_and, if_false]
      split <;> rfl
  | true =>
      cases verified : fsVerified tools faults (unpack tools faults world) with
      | false => rfl
      | true =>
          simp only [and_self, if_true]
          split
          · split <;> rfl
          · rfl

theorem upgrade_flashedFrom {arguments : List String} {chosen : Mode}
    (is : mode arguments = some chosen) (world : World) :
    (upgrade tools faults arguments world).flashedFrom =
      if (chosen.kernel = true ∧
          (chosen.fs = true → fsVerified tools faults (unpack tools faults world) = true)) ∧
        kernelVerified tools faults (beforeKernel chosen (unpack tools faults world)) = true then
        some (beforeKernel chosen (unpack tools faults world))
      else none := by
  unfold upgrade upgradeKernel beforeKernel
  rw [is]
  rcases mode_cases is with kernel | fs | all
  · rw [kernel]
    dsimp only
    simp only [Bool.false_eq_true, if_false, false_implies, and_self, true_and]
    split <;> rfl
  · rw [fs]
    dsimp only
    simp only [Bool.false_eq_true, if_true, if_false, false_and]
    split <;> rfl
  · rw [all]
    dsimp only
    cases verified : fsVerified tools faults (unpack tools faults world) with
    | false => rfl
    | true =>
        simp only [if_true, forall_const, and_self, true_and]
        split <;> rfl

theorem forall_ifSome {condition : Prop} [Decidable condition] {world : World}
    {holds : World → Prop} :
    (∀ before, (if condition then some world else none) = some before → holds before) ↔
      (condition → holds world) := by
  split
  · rename_i met
    exact ⟨fun every _ => every world rfl, fun is before same => Option.some.inj same ▸ is met⟩
  · rename_i unmet
    exact ⟨fun _ met => absurd met unmet, fun _ _ impossible => by cases impossible⟩

/-- Everything written is authentic exactly when what the checks leave open is in order. -/
theorem upgrade_authentic_iff (tools : Tools) (faults : Faults) (arguments : List String)
    (world : World) :
    Authentic tools (upgrade tools faults arguments world) ↔
      Trusted tools faults arguments world := by
  cases is : mode arguments with
  | none =>
      have nothing : upgrade tools faults arguments world = refuse world := by
        unfold upgrade
        rw [is]
      unfold Authentic Trusted
      rw [nothing, is]
      constructor
      · exact fun _ chosen impossible => nomatch impossible
      · intro _
        constructor
        · exact fun before impossible => nomatch impossible
        · exact fun before impossible => nomatch impossible
  | some chosen =>
      unfold Authentic Trusted
      rw [upgrade_copiedFrom is, upgrade_flashedFrom is, forall_ifSome, forall_ifSome]
      constructor
      · rintro ⟨copies, flashes⟩ other same
        cases is.symm.trans same
        refine ⟨fun fs verified => ?_, fun kernel reached verified => ?_⟩
        · exact (authenticCopy_iff verified).mp (copies ⟨fs, verified⟩)
        · exact (authenticFlash_iff verified).mp (flashes ⟨⟨kernel, reached⟩, verified⟩)
      · intro trusted
        obtain ⟨copies, flashes⟩ := trusted chosen is
        refine ⟨fun met => ?_, fun met => ?_⟩
        · exact (authenticCopy_iff met.2).mpr (copies met.1 met.2)
        · exact (authenticFlash_iff met.2).mpr (flashes met.1.1 met.1.2 met.2)

/-! ### A left-over file -/

def nodes (list : List (Path × Node)) (path : Path) : Option Node := list.lookup path

def noFaults : Faults :=
  { mkdirPackage := false
    mkdirOverlay := false
    tarPackage := none
    tarImage := none
    grepFs := false
    md5sumFs := false
    grepKernel := false
    md5sumKernel := false
    last := 0 }

def nologinDigest : Digest :=
  { text := "2890595dcd8842a50f6b63e350f7e02c".toList
    nonempty := by decide
    letters := by
      have each : ("2890595dcd8842a50f6b63e350f7e02c".toList.all fun letter =>
          isBlank letter == false) = true := by decide
      exact fun letter member => beq_iff_eq.mp (List.all_eq_true.mp each letter member)
    oneLine := by decide }

def nologinTools : Tools :=
  { md5 := fun _ => nologinDigest
    untar := fun _ => [{ path := ["fs-overlay", "etc", "nologin"], contents := some [] }] }

/-- An earlier extraction, and neither a package nor a manifest. -/
def leftOver : World :=
  { node := nodes
      [(["etc"], .directory), (["app"], .directory), (packageDir, .directory),
        (fsOverlayDir, .directory), (fsOverlayDir ++ ["etc"], .directory),
        (fsOverlayDir ++ ["etc", "passwd"], .file "root::0:0::/:/bin/sh\n".toList)]
    kernelPart := [] }

/-- Both texts are empty and the left-over file is copied. -/
theorem leftOver_copied :
    ¬ Authentic nologinTools (upgrade nologinTools noFaults ["fs"] leftOver) := by
  intro authentic
  have verified :
      fsVerified nologinTools noFaults (unpack nologinTools noFaults leftOver) = true := by decide
  have copied : (upgrade nologinTools noFaults ["fs"] leftOver).copiedFrom =
      some (unpack nologinTools noFaults leftOver) := by
    rw [upgrade_copiedFrom rfl]
    exact if_pos ⟨rfl, verified⟩
  obtain ⟨archive, found, _⟩ := authentic.1 _ copied ["etc", "passwd"]
    "root::0:0::/:/bin/sh\n".toList (by decide)
  have missing : (unpack nologinTools noFaults leftOver).contents fsImage = none := by decide
  rw [missing] at found
  cases found

end BuildLinux.Concrete.UpgradeChecks
