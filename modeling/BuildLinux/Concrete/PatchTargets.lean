/-
The patch targets of build-embedded-system: `apply_patches` of common.mk and the
targets of package/busybox/sub.mk and package/cups/sub.mk around it.

The source tree is shared by all models; the stamp lies in the output directory
of a model.  The archives, the patches and the programs that work on a tree are
parameters, and so are the patch and touch commands that fail.  The listing of
the patches is not quoted: its lines are split into fields, and these expanded,
before the loop opens what they name.
-/

import BuildLinux.CStrings
import BuildLinux.PathnameExpansion
import BuildLinux.ShellText
import BuildLinux.TransitionSystem
import Mathlib.Data.List.Sort

namespace BuildLinux.Concrete.PatchTargets

open CStrings TransitionSystem
open PathnameExpansion (expandText isSpecial matchName)
open ShellText (fields fields_substitution fields_word isSeparator lines substitution)

inductive Package where
  | busybox
  | cups
  deriving DecidableEq, Repr

/-- The order of `sort`. -/
structure Collation where
  before : CString → CString → Bool
  total : ∀ left right, before left right = true ∨ before right left = true
  transitive : ∀ left middle right, before left middle = true → before middle right = true →
    before left right = true

structure PatchFile (content : Type) where
  name : CString
  body : content

structure PatchDir (content : Type) where
  files : List (PatchFile content)
  distinct : (files.map PatchFile.name).Nodup

/-- What a package brings along, and what the programs do with a tree: `tar`
unpacks over what is there, `patch` accepts a patch or does not. -/
structure Materials (tree content : Type) where
  archiveDir : CString
  /-- `$(1)`, where there may be a directory. -/
  patchPath : CString
  patchDir : Option (PatchDir content)
  /-- The files that a word of the loop can name besides those. -/
  elsewhere : List (CString × content)
  collation : Collation
  tar : Option tree → tree
  patch : content → tree → Option tree
  autoconf : tree → tree

/-- The staging directory of one package: the directory its archive unpacks to,
the link to it, and each model's output directory with or without a stamp. -/
structure Staging (model tree : Type) where
  unpacked : Option tree
  link : Bool
  output : model → Option Bool

/-- The commands of one invocation that fail: a patch command with the tree it
leaves, and the touch command. -/
structure Failures (tree : Type) where
  command : Nat → Option tree
  touch : Bool

inductive Target where
  | extract
  | patch
  | configure
  | build
  | clean
  | distclean
  deriving DecidableEq, Repr

structure Invocation (model tree : Type) where
  target : Target
  m : model
  failures : Failures tree

variable {model tree content : Type}

/-! ### apply_patches -/

variable (materials : Materials tree content)

def isPatch (file : PatchFile content) : Bool := matchName "*.patch".toList file.name

def dirFiles : List (PatchFile content) :=
  match materials.patchDir with
  | none => []
  | some dir => dir.files

/-- The path that `ls "$(1)"/*.patch` prints for a file. -/
def path (file : PatchFile content) : CString := materials.patchPath ++ '/' :: file.name

/-- The patch files in the order of `sort`. -/
def patches : List (PatchFile content) :=
  ((dirFiles materials).filter isPatch).insertionSort fun first second =>
    materials.collation.before (path materials first) (path materials second) = true

/-- The lines of `ls "$(1)"/*.patch | sort`. -/
def listing : List CString :=
  (((dirFiles materials).filter isPatch).flatMap fun file =>
    lines (path materials file)).insertionSort fun first second =>
      materials.collation.before first second = true

def openable : List (CString × content) :=
  (dirFiles materials).map (fun file => (path materials file, file.body)) ++ materials.elsewhere

def openFile (name : CString) : Option content := (openable materials).lookup name

/-- The words of `for p in $$patches`. -/
def words : List CString :=
  (fields (substitution (listing materials))).flatMap
    (expandText ((openable materials).map Prod.fst))

/-- The loop, which `set -e` ends at the first command that fails. -/
def runPatches : List CString → (Nat → Option tree) → tree → tree × Bool
  | [], _, source => (source, true)
  | p :: later, command, source =>
      match command 0 with
      | some left => (left, false)
      | none =>
          match (openFile materials p).bind fun body => materials.patch body source with
          | none => (source, false)
          | some patched => runPatches later (fun index => command (index + 1)) patched

/-- The tree that `BUSYBOX_DIR` or `CUPS_DIR` leads to. -/
def sourceDir (package : Package) (staging : Staging model tree) : Option tree :=
  match package with
  | .busybox => if staging.link then staging.unpacked else none
  | .cups => if materials.archiveDir = "cups".toList then staging.unpacked else none

/-- `[ -d $(DIR) ] || tar xf`, and for busybox `ln -snf`. -/
def extract (package : Package) (staging : Staging model tree) : Staging model tree :=
  let present :=
    if (sourceDir materials package staging).isSome then staging
    else { staging with unpacked := some (materials.tar staging.unpacked) }
  match package with
  | .busybox => { present with link := true }
  | .cups => present

def patchLoop (package : Package) (failures : Failures tree) (staging : Staging model tree) :
    Staging model tree × Bool :=
  match sourceDir materials package staging with
  | none => (staging, (words materials).isEmpty)
  | some source =>
      let result := runPatches materials (words materials) failures.command source
      ({ staging with unpacked := some result.1 }, result.2)

section Outputs

variable [DecidableEq model]

def setOutput (m : model) (content : Option Bool) (staging : Staging model tree) :
    Staging model tree :=
  { staging with output := Function.update staging.output m content }

def touch (m : model) (fails : Bool) (staging : Staging model tree) :
    Staging model tree × Bool :=
  match staging.output m with
  | none => (staging, false)
  | some _ => if fails then (staging, false) else (setOutput m (some true) staging, true)

def applyPatches (package : Package) (m : model) (failures : Failures tree)
    (staging : Staging model tree) : Staging model tree × Bool :=
  if staging.output m = some true then (staging, true)
  else
    match patchLoop materials package failures staging with
    | (left, false) => (left, false)
    | (patched, true) => touch m failures.touch patched

/-! ### The targets -/

def patch (package : Package) (m : model) (failures : Failures tree)
    (staging : Staging model tree) : Staging model tree × Bool :=
  applyPatches materials package m failures (extract materials package staging)

def mkOutput (m : model) (staging : Staging model tree) : Staging model tree :=
  if (staging.output m).isSome then staging else setOutput m (some false) staging

/-- `cd $(CUPS_DIR) && autoconf -f`. -/
def regenerate (staging : Staging model tree) : Staging model tree :=
  { staging with
    unpacked :=
      match sourceDir materials .cups staging with
      | none => staging.unpacked
      | some source => some (materials.autoconf source) }

def configure (package : Package) (m : model) (failures : Failures tree)
    (staging : Staging model tree) : Staging model tree :=
  match package with
  | .busybox => mkOutput m staging
  | .cups =>
      match patch materials .cups m failures staging with
      | (left, false) => left
      | (patched, true) => regenerate materials (mkOutput m patched)

def build (package : Package) (m : model) (failures : Failures tree)
    (staging : Staging model tree) : Staging model tree :=
  match package with
  | .busybox => staging
  | .cups => configure materials .cups m failures staging

def clean (m : model) (staging : Staging model tree) : Staging model tree :=
  setOutput m none staging

/-- `rm -rf` of a link removes no tree. -/
def distclean (package : Package) (m : model) (staging : Staging model tree) :
    Staging model tree :=
  match package with
  | .busybox => { setOutput m none staging with link := false }
  | .cups =>
      { setOutput m none staging with
        unpacked :=
          if materials.archiveDir = "cups".toList then none else staging.unpacked }

def make (package : Package) (invocation : Invocation model tree)
    (staging : Staging model tree) : Staging model tree :=
  match invocation.target with
  | .extract => extract materials package staging
  | .patch => (patch materials package invocation.m invocation.failures staging).1
  | .configure => configure materials package invocation.m invocation.failures staging
  | .build => build materials package invocation.m invocation.failures staging
  | .clean => clean invocation.m staging
  | .distclean => distclean materials package invocation.m staging

end Outputs

def emptyStaging : Staging model tree where
  unpacked := none
  link := false
  output _ := none

def makeSystem [DecidableEq model] (package : Package) :
    System (Staging model tree) (Invocation model tree) where
  Initial staging := staging = emptyStaging
  Step before invocation after := after = make materials package invocation before

/-! ### Patched exactly once -/

/-- The pristine tree with the given patches, each applied to what the ones
before it left. -/
def patchedBy (series : List (PatchFile content)) : Option tree :=
  series.foldlM (fun source file => materials.patch file.body source) (materials.tar none)

/-- The source tree is the pristine one with every `*.patch` file applied once
and in sorted order. -/
def PatchedOnce (package : Package) (staging : Staging model tree) : Prop :=
  ∃ series : List (PatchFile content),
    series.Perm ((dirFiles materials).filter isPatch) ∧
    (series.Pairwise fun first second =>
      materials.collation.before (path materials first) (path materials second) = true) ∧
    ∃ source, patchedBy materials series = some source ∧
      sourceDir materials package staging = some source

def NoStamp (staging : Staging model tree) : Prop :=
  ∀ m, staging.output m ≠ some true

/-- The archive is unpacked without a stamp in any output directory, or over a
tree that stays as it is. -/
def UnpacksSafely (staging : Staging model tree) : Prop :=
  sourceDir materials .busybox staging = none →
    NoStamp staging ∨ some (materials.tar staging.unpacked) = staging.unpacked

/-- The shell leaves the path of a patch as it is.  Shells differ in what a backslash in a
pattern means. -/
def PathsKept : Prop :=
  ∀ file ∈ (dirFiles materials).filter isPatch,
    (∀ letter ∈ path materials file, isSeparator letter = false) ∧
      ((path materials file).any isSpecial = true → '\\' ∉ path materials file) ∧
      expandText ((openable materials).map Prod.fst) (path materials file) =
        [path materials file]

/-- Without its stamp the target finds the tree as the archive has it, and if
there is a patch to apply, no stamp of another model; and it reads the paths of
the patches as they are. -/
structure PatchesSafely (m : model) (staging : Staging model tree) : Prop where
  pristine : staging.output m ≠ some true →
    (extract materials .busybox staging).unpacked = some (materials.tar none)
  alone : staging.output m ≠ some true → patches materials = [] ∨ NoStamp staging
  paths : staging.output m ≠ some true → PathsKept materials

/-- The condition on an invocation; for cups there is none. -/
def Allowed (package : Package) (_ : List (Invocation model tree)) (staging : Staging model tree)
    (invocation : Invocation model tree) : Prop :=
  match package with
  | .cups => True
  | .busybox =>
      match invocation.target with
      | .extract => UnpacksSafely materials staging
      | .patch => UnpacksSafely materials staging ∧ PatchesSafely materials invocation.m staging
      | _ => True

/-! ### The series -/

theorem patches_perm : (patches materials).Perm ((dirFiles materials).filter isPatch) :=
  List.perm_insertionSort _ _

theorem patches_sorted : (patches materials).Pairwise fun first second =>
    materials.collation.before (path materials first) (path materials second) = true := by
  have total : Std.Total fun first second : PatchFile content =>
      materials.collation.before (path materials first) (path materials second) = true :=
    ⟨fun first second => materials.collation.total (path materials first) (path materials second)⟩
  have transitive : IsTrans (PatchFile content) fun first second =>
      materials.collation.before (path materials first) (path materials second) = true :=
    ⟨fun first second third => materials.collation.transitive (path materials first)
      (path materials second) (path materials third)⟩
  exact List.pairwise_insertionSort _ _

theorem path_injective {first second : PatchFile content}
    (same : path materials first = path materials second) : first.name = second.name :=
  (List.cons.inj (List.append_cancel_left same)).2

theorem lookup_path {files : List (PatchFile content)} {file : PatchFile content}
    (distinct : (files.map PatchFile.name).Nodup) (member : file ∈ files) :
    (files.map fun file => (path materials file, file.body)).lookup (path materials file) =
      some file.body := by
  induction files with
  | nil => cases member
  | cons first rest ih =>
      rw [List.map_cons, List.nodup_cons] at distinct
      rw [List.map_cons, List.lookup_cons]
      cases member with
      | head => rw [beq_self_eq_true]
      | tail _ member =>
          have differ : (path materials file == path materials first) = false := by
            refine beq_eq_false_iff_ne.mpr fun same => distinct.1 ?_
            rw [← path_injective materials same]
            exact List.mem_map_of_mem member
          rw [differ]
          exact ih distinct.2 member

theorem openFile_path {file : PatchFile content} (member : file ∈ dirFiles materials) :
    openFile materials (path materials file) = some file.body := by
  have distinct : ((dirFiles materials).map PatchFile.name).Nodup := by
    unfold dirFiles
    cases materials.patchDir with
    | none => exact List.nodup_nil
    | some dir => exact dir.distinct
  unfold openFile openable
  rw [List.lookup_append, lookup_path materials distinct member]
  rfl

theorem listing_kept (kept : PathsKept materials) :
    listing materials = (patches materials).map (path materials) := by
  have oneLine : (((dirFiles materials).filter isPatch).flatMap fun file =>
      lines (path materials file)) =
        ((dirFiles materials).filter isPatch).map (path materials) := by
    rw [List.map_eq_flatMap]
    refine List.flatMap_congr fun file member => List.splitOn_eq_singleton fun newline => ?_
    exact absurd ((kept file member).1 '\n' newline) (by decide)
  unfold listing patches
  rw [oneLine]
  symm
  apply List.map_insertionSort
  exact fun first _ second _ => Iff.rfl

/-- The words are the paths of the patches, in the order of `sort`. -/
theorem words_kept (kept : PathsKept materials) :
    words materials = (patches materials).map (path materials) := by
  unfold words
  rw [fields_substitution, listing_kept materials kept, List.flatMap_map, List.flatMap_assoc]
  refine (List.flatMap_congr fun file member => ?_).trans List.map_eq_flatMap.symm
  obtain ⟨letters, _, expanded⟩ := kept file ((patches_perm materials).mem_iff.mp member)
  have nonempty : path materials file ≠ [] :=
    List.append_ne_nil_of_right_ne_nil _ (List.cons_ne_nil _ _)
  rw [fields_word letters nonempty, List.flatMap_singleton, expanded]

/-- All the patches are applied if the loop over their paths comes to its end. -/
theorem runPatches_complete {series : List (PatchFile content)} {command : Nat → Option tree}
    {source : tree} (present : ∀ file ∈ series, file ∈ dirFiles materials)
    (done : (runPatches materials (series.map (path materials)) command source).2 = true) :
    series.foldlM (fun source file => materials.patch file.body source) source =
      some (runPatches materials (series.map (path materials)) command source).1 := by
  induction series generalizing command source with
  | nil => rfl
  | cons file later ih =>
      rw [List.map_cons] at done ⊢
      unfold runPatches at done ⊢
      cases fails : command 0 with
      | some left =>
          rw [fails] at done
          cases done
      | none =>
          rw [fails] at done
          rw [openFile_path materials (present file List.mem_cons_self)] at done ⊢
          rw [List.foldlM_cons]
          rw [Option.bind_some] at done ⊢
          cases applied : materials.patch file.body source with
          | none =>
              rw [applied] at done
              cases done
          | some patched =>
              rw [applied] at done
              exact ih (fun other member => present other (List.mem_cons_of_mem file member)) done

/-! ### Stamps on busybox -/

/-- The tree under a stamp has every patch. -/
def Kept (staging : Staging model tree) : Prop :=
  ∀ m, staging.output m = some true →
    ∃ source, staging.unpacked = some source ∧ patchedBy materials (patches materials) = some source

variable {materials} {staging : Staging model tree}

theorem kept_of_complete {source : tree} (here : staging.unpacked = some source)
    (complete : patchedBy materials (patches materials) = some source) :
    Kept materials staging :=
  fun _ _ => ⟨source, here, complete⟩

theorem extract_output (package : Package) :
    (extract materials package staging).output = staging.output := by
  cases package with
  | busybox =>
      unfold extract
      dsimp only
      split
      · rfl
      · rfl
  | cups =>
      unfold extract
      dsimp only
      split
      · rfl
      · rfl

theorem sourceDir_busybox (linked : staging.link = true) :
    sourceDir materials .busybox staging = staging.unpacked := by
  unfold sourceDir
  rw [linked]
  rfl

theorem kept_extract (kept : Kept materials staging) (safe : UnpacksSafely materials staging) :
    Kept materials (extract materials .busybox staging) := by
  intro m stamped
  rw [extract_output] at stamped
  obtain ⟨source, here, complete⟩ := kept m stamped
  refine ⟨source, ?_, complete⟩
  unfold extract
  dsimp only
  split
  · exact here
  · next absent =>
      rw [Option.not_isSome_iff_eq_none] at absent
      rcases safe absent with unstamped | same
      · exact absurd stamped (unstamped m)
      · exact same.trans here

def NoOutput (staging : Staging model tree) : Prop := ∀ m, staging.output m = none

theorem patchLoop_output (package : Package) (failures : Failures tree) :
    (patchLoop materials package failures staging).1.output = staging.output := by
  unfold patchLoop
  cases sourceDir materials package staging with
  | none => rfl
  | some source => rfl

variable [DecidableEq model]

theorem touch_unpacked (staging : Staging model tree) (m : model) (fails : Bool) :
    (touch m fails staging).1.unpacked = staging.unpacked ∧
      (touch m fails staging).1.link = staging.link := by
  unfold touch
  cases staging.output m with
  | none => exact ⟨rfl, rfl⟩
  | some stamped =>
      cases fails with
      | true => exact ⟨rfl, rfl⟩
      | false => exact ⟨rfl, rfl⟩

theorem kept_setOutput {present : Option Bool} (unstamped : present ≠ some true) (m : model)
    (kept : Kept materials staging) : Kept materials (setOutput m present staging) := by
  intro other stamped
  apply kept other
  change Function.update staging.output m present other = some true at stamped
  by_cases same : other = m
  · rw [same, Function.update_self] at stamped
    exact absurd stamped unstamped
  · rw [Function.update_of_ne same] at stamped
    exact stamped

theorem kept_mkOutput (m : model) (kept : Kept materials staging) :
    Kept materials (mkOutput m staging) := by
  unfold mkOutput
  split
  · exact kept
  · exact kept_setOutput (by decide) m kept

/-- One run of the target keeps the stamped trees whole, and ends successfully
only on the complete tree. -/
theorem patch_kept {m : model} (failures : Failures tree) (kept : Kept materials staging)
    (unpacks : UnpacksSafely materials staging) (starts : PatchesSafely materials m staging) :
    Kept materials (patch materials .busybox m failures staging).1 ∧
      ((patch materials .busybox m failures staging).2 = true →
        ∃ source, patchedBy materials (patches materials) = some source ∧
          sourceDir materials .busybox (patch materials .busybox m failures staging).1 =
            some source) := by
  have extracted := kept_extract kept unpacks
  have found : sourceDir materials .busybox (extract materials .busybox staging) =
      (extract materials .busybox staging).unpacked := sourceDir_busybox rfl
  unfold patch applyPatches
  by_cases stamped : (extract materials .busybox staging).output m = some true
  · rw [if_pos stamped]
    refine ⟨extracted, fun _ => ?_⟩
    obtain ⟨source, here, complete⟩ := extracted m stamped
    exact ⟨source, complete, found.trans here⟩
  · rw [if_neg stamped]
    rw [extract_output] at stamped
    have pristine := starts.pristine stamped
    have kept := words_kept materials (starts.paths stamped)
    have present : ∀ file ∈ patches materials, file ∈ dirFiles materials :=
      fun file member => (List.mem_filter.mp ((patches_perm materials).mem_iff.mp member)).1
    have loop : patchLoop materials .busybox failures (extract materials .busybox staging) =
        ({ extract materials .busybox staging with
            unpacked := some (runPatches materials ((patches materials).map (path materials))
              failures.command (materials.tar none)).1 },
          (runPatches materials ((patches materials).map (path materials)) failures.command
            (materials.tar none)).2) := by
      unfold patchLoop
      rw [found, pristine, kept]
    rw [loop]
    cases done : (runPatches materials ((patches materials).map (path materials))
        failures.command (materials.tar none)).2 with
    | false =>
        refine ⟨?_, nofun⟩
        rcases starts.alone stamped with nothing | unstamped
        · rw [nothing] at done
          cases done
        · intro other otherStamped
          change (extract materials .busybox staging).output other = some true at otherStamped
          rw [extract_output] at otherStamped
          exact absurd otherStamped (unstamped other)
    | true =>
        have complete := runPatches_complete materials present done
        dsimp only
        refine ⟨kept_of_complete (touch_unpacked _ m failures.touch).1 complete,
          fun _ => ⟨_, complete, ?_⟩⟩
        rw [sourceDir_busybox (touch_unpacked _ m failures.touch).2]
        exact (touch_unpacked _ m failures.touch).1

theorem make_kept {history : List (Invocation model tree)} {invocation : Invocation model tree}
    (kept : Kept materials staging)
    (meets : Allowed materials .busybox history staging invocation) :
    Kept materials (make materials .busybox invocation staging) := by
  unfold Allowed at meets
  unfold make
  cases target : invocation.target with
  | extract =>
      rw [target] at meets
      exact kept_extract kept meets
  | patch =>
      rw [target] at meets
      exact (patch_kept invocation.failures kept meets.1 meets.2).1
  | configure => exact kept_mkOutput invocation.m kept
  | build => exact kept
  | clean => exact kept_setOutput (by decide : none ≠ some true) invocation.m kept
  | distclean => exact kept_setOutput (by decide : none ≠ some true) invocation.m kept

/-! ### No output directory for cups -/

/-- The directory of the stamp is made behind the target, which cannot succeed
without it. -/
theorem patch_cups (m : model) (failures : Failures tree) (bare : NoOutput staging) :
    (patch materials .cups m failures staging).2 = false ∧
      NoOutput (patch materials .cups m failures staging).1 := by
  have extracted : NoOutput (extract materials .cups staging) := by
    intro other
    rw [extract_output]
    exact bare other
  unfold patch applyPatches
  rw [if_neg (by rw [extracted m]; nofun)]
  have outputs : (patchLoop materials .cups failures (extract materials .cups staging)).1.output =
      (extract materials .cups staging).output := patchLoop_output .cups failures
  cases loop : patchLoop materials .cups failures (extract materials .cups staging) with
  | mk left done =>
      rw [loop] at outputs
      have still : NoOutput left := fun other => (congrFun outputs other).trans (extracted other)
      cases done with
      | false => exact ⟨rfl, still⟩
      | true =>
          unfold touch
          dsimp only
          rw [still m]
          exact ⟨rfl, still⟩

theorem setOutput_none (m : model) (bare : NoOutput staging) :
    NoOutput (setOutput m none staging) := by
  intro other
  by_cases same : other = m
  · rw [same]
    exact Function.update_self m none staging.output
  · exact (Function.update_of_ne same none staging.output).trans (bare other)

theorem configure_cups (m : model) (failures : Failures tree) (bare : NoOutput staging) :
    NoOutput (configure materials .cups m failures staging) := by
  obtain ⟨failed, still⟩ : (patch materials .cups m failures staging).2 = false ∧
      NoOutput (patch materials .cups m failures staging).1 := patch_cups m failures bare
  unfold configure
  cases patched : patch materials .cups m failures staging with
  | mk left done =>
      rw [patched] at failed still
      cases failed
      exact still

theorem make_cups (invocation : Invocation model tree) (bare : NoOutput staging) :
    NoOutput (make materials .cups invocation staging) := by
  unfold make
  cases invocation.target with
  | extract =>
      intro m
      change (extract materials .cups staging).output m = none
      rw [extract_output]
      exact bare m
  | patch => exact (patch_cups invocation.m invocation.failures bare).2
  | configure => exact configure_cups invocation.m invocation.failures bare
  | build => exact configure_cups invocation.m invocation.failures bare
  | clean => exact setOutput_none invocation.m bare
  | distclean => exact setOutput_none invocation.m bare

/-! ### Runs -/

theorem runs_kept {history : List (Invocation model tree)}
    (run : RunsWhere (makeSystem materials .busybox) (Allowed materials .busybox) history staging) :
    Kept materials staging := by
  apply run.invariant fun _ staging => Kept materials staging
  · rintro initial rfl m ⟨⟩
  · rintro history before invocation after kept meets rfl
    exact make_kept kept meets

theorem runs_cups {history : List (Invocation model tree)}
    (run : RunsWhere (makeSystem materials .cups) (Allowed materials .cups) history staging) :
    NoOutput staging := by
  apply run.invariant fun _ staging => NoOutput staging
  · rintro initial rfl m
    rfl
  · rintro history before invocation after bare _ rfl
    exact make_cups invocation bare

/-- The order of `sort` in the C locale. -/
def codesBefore : CString → CString → Bool
  | [], _ => true
  | _ :: _, [] => false
  | first :: left, second :: right =>
      decide (first.toNat < second.toNat) || first.toNat == second.toNat && codesBefore left right

theorem codesBefore_total (left right : CString) :
    codesBefore left right = true ∨ codesBefore right left = true := by
  induction left generalizing right with
  | nil => exact Or.inl rfl
  | cons first left ih =>
      cases right with
      | nil => exact Or.inr rfl
      | cons second right =>
          simp only [codesBefore, Bool.or_eq_true, Bool.and_eq_true, decide_eq_true_eq,
            beq_iff_eq]
          rcases Nat.lt_trichotomy first.toNat second.toNat with below | same | above
          · exact Or.inl (Or.inl below)
          · rcases ih right with lower | upper
            · exact Or.inl (Or.inr ⟨same, lower⟩)
            · exact Or.inr (Or.inr ⟨same.symm, upper⟩)
          · exact Or.inr (Or.inl above)

theorem codesBefore_transitive (left middle right : CString)
    (lower : codesBefore left middle = true) (upper : codesBefore middle right = true) :
    codesBefore left right = true := by
  induction left generalizing middle right with
  | nil => rfl
  | cons first left ih =>
      cases middle with
      | nil => cases lower
      | cons second middle =>
          cases right with
          | nil => cases upper
          | cons third right =>
              have rest := ih middle right
              simp only [codesBefore, Bool.or_eq_true, Bool.and_eq_true, decide_eq_true_eq,
                beq_iff_eq] at lower upper ⊢
              rcases lower with below | ⟨same, lower⟩
              · omega
              · rcases upper with below | ⟨same', upper⟩
                · omega
                · exact Or.inr ⟨same.trans same', rest lower upper⟩

def cLocale : Collation where
  before := codesBefore
  total := codesBefore_total
  transitive := codesBefore_transitive

/-- A hunk that adds one line between two, wherever these stand first. -/
structure Hunk where
  above : Char
  added : Char
  below : Char

def Hunk.insert (hunk : Hunk) : List Char → Option (List Char)
  | above :: below :: rest =>
      if above = hunk.above ∧ below = hunk.below then
        some (above :: hunk.added :: below :: rest)
      else (hunk.insert (below :: rest)).map (List.cons above)
  | _ => none

/-- A tree of one file with the lines x, y, x, y, and a patch that adds a line z. -/
def repeatedLines : Materials (List Char) Hunk where
  archiveDir := "busybox-1.36.0".toList
  patchPath := "package/busybox/patches/1.36.0".toList
  patchDir := some
    { files :=
        [{ name := "0001-add-z.patch".toList
           body := { above := 'x', added := 'z', below := 'y' } }]
      distinct := List.nodup_singleton _ }
  elsewhere := []
  collation := cLocale
  tar _ := ['x', 'y', 'x', 'y']
  patch := Hunk.insert
  autoconf source := source

def noFailure : Failures (List Char) where
  command _ := none
  touch := false

def invocation (target : Target) (m : CString) : Invocation CString (List Char) where
  target := target
  m := m
  failures := noFailure

def rk3568 : CString := "rk3568".toList

def rk3562 : CString := "rk3562".toList

/-- The staging directory after configuring, and after patching, for one model. -/
def configuredFirst : Staging CString (List Char) :=
  make repeatedLines .busybox (invocation .configure rk3568) emptyStaging

def patchedFirst : Staging CString (List Char) :=
  make repeatedLines .busybox (invocation .patch rk3568) configuredFirst

theorem configuredFirst_fresh : NoStamp configuredFirst := by
  intro m
  change Function.update (fun _ => none) rk3568 (some false) m ≠ some true
  by_cases same : m = rk3568
  · rw [same, Function.update_self]
    decide
  · rw [Function.update_of_ne same]
    nofun

theorem repeatedLines_kept : PathsKept repeatedLines := by
  have plain : ("package/busybox/patches/1.36.0/0001-add-z.patch".toList.all fun letter =>
      isSeparator letter == false) = true := by decide
  refine List.forall_mem_singleton.mpr
    ⟨fun letter member => ?_, fun special => absurd special (by decide), rfl⟩
  exact beq_iff_eq.mp (List.all_eq_true.mp plain letter member)

def bracketed : Materials (List Char) Hunk :=
  { repeatedLines with
    patchDir := some
      { files :=
          [{ name := "0001-a.patch".toList, body := { above := 'x', added := 'z', below := 'y' } },
            { name := "0001-[a].patch".toList
              body := { above := 'y', added := 'z', below := 'x' } }]
        distinct := by decide } }

/-- The name with brackets is a pattern that the other one matches. -/
example : words bracketed =
    ["package/busybox/patches/1.36.0/0001-a.patch".toList,
      "package/busybox/patches/1.36.0/0001-a.patch".toList] := by decide

end BuildLinux.Concrete.PatchTargets
