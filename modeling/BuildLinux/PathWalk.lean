/-
Paths resolved name by name.

The file system is a tree of directories without symbolic links, and a path that
does not begin with a slash starts in the working directory.  Everything on the
way has to be a directory, also where `..` leads back out of it.
-/

import BuildLinux.CStrings

namespace BuildLinux.PathWalk

open CStrings (CString)

/-- A file or directory, by the names that lead to it from the root directory. -/
abbrev Place := List CString

/-- An empty name is what a second or a last slash leaves. -/
def lookUp (place : Place) (name : CString) : Place :=
  if name = [] ∨ name = ['.'] then place
  else if name = ['.', '.'] then place.dropLast
  else place ++ [name]

def names (path : CString) : List CString := path.splitOn '/'

def destination (start : Place) (names : List CString) : Place := names.foldl lookUp start

/-- The places in which a name is looked up. -/
def visited (start : Place) : List CString → List Place
  | [] => []
  | name :: rest => start :: visited (lookUp start name) rest

def startOf (cwd : Place) (path : CString) : Place :=
  if path.head? = some '/' then [] else cwd

structure Tree where
  isDirectory : Place → Bool
  root : isDirectory [] = true
  above : ∀ place further, place <+: further → isDirectory further = true →
    isDirectory place = true

def Tree.resolve (tree : Tree) (cwd : Place) (path : CString) : Option Place :=
  if (visited (startOf cwd path) (names path)).all tree.isDirectory then
    some (destination (startOf cwd path) (names path))
  else none

theorem resolve_eq_some {tree : Tree} {cwd place : Place} {path : CString} :
    tree.resolve cwd path = some place ↔
      (∀ between ∈ visited (startOf cwd path) (names path), tree.isDirectory between = true) ∧
        destination (startOf cwd path) (names path) = place := by
  unfold Tree.resolve
  rw [Option.ite_none_right_eq_some, List.all_eq_true, Option.some_inj]

/-! ### How far up a path can lead -/

theorem lookUp_length (place : Place) (name : CString) :
    place.length ≤ (lookUp place name).length + 1 := by
  unfold lookUp
  split
  · exact Nat.le_succ _
  · split
    · rw [List.length_dropLast]
      omega
    · rw [List.length_append]
      omega

theorem destination_length (start : Place) (names : List CString) :
    start.length ≤ (destination start names).length + names.length := by
  induction names generalizing start with
  | nil => exact Nat.le_refl _
  | cons name rest ih =>
      have first := lookUp_length start name
      have later := ih (lookUp start name)
      rw [List.length_cons]
      change start.length ≤ (destination (lookUp start name) rest).length + (rest.length + 1)
      omega

/-! ### Paths without `..` -/

def isStep (name : CString) : Bool := name != [] && name != ['.']

/-- Without `..` a path leads down by all the names that are steps. -/
theorem destination_plain {names : List CString} (plain : ['.', '.'] ∉ names) (start : Place) :
    destination start names = start ++ names.filter isStep := by
  induction names generalizing start with
  | nil => exact (List.append_nil start).symm
  | cons name rest ih =>
      rw [List.mem_cons, not_or] at plain
      change destination (lookUp start name) rest = _
      rw [ih plain.2]
      unfold lookUp
      by_cases stays : name = [] ∨ name = ['.']
      · have noStep : ¬isStep name = true := by
          rcases stays with rfl | rfl
          · decide
          · decide
        rw [if_pos stays, List.filter_cons_of_neg noStep]
      · have isOne : isStep name = true := by
          rw [not_or] at stays
          exact Bool.and_eq_true_iff.mpr ⟨bne_iff_ne.mpr stays.1, bne_iff_ne.mpr stays.2⟩
        rw [if_neg stays, if_neg (Ne.symm plain.1), List.filter_cons_of_pos isOne,
          List.append_assoc, List.singleton_append]

/-! ### Paths that lead to the same place in every tree -/

/-- The directories that a path from the root needs; with `ends` it leads to one itself. -/
def needed (path : CString) (ends : Bool) : List Place :=
  visited [] (names path) ++ if ends then [destination [] (names path)] else []

def onTheWay (path : CString) (ends : Bool) (place : Place) : Bool :=
  (needed path ends).any fun further => place.isPrefixOf further

/-- The second path leads to where the first one leads, through no other directories. -/
structure Follows (path text : CString) (ends : Bool) : Prop where
  absolute : text.head? = some '/'
  arrives : destination [] (names text) = destination [] (names path)
  between : ∀ place ∈ visited [] (names text), onTheWay path ends place = true

theorem onTheWay_iff {path : CString} {ends : Bool} {place : Place} :
    onTheWay path ends place = true ↔ ∃ further ∈ needed path ends, place <+: further := by
  unfold onTheWay
  simp only [List.any_eq_true, List.isPrefixOf_iff_prefix]

theorem root_needed (path : CString) (ends : Bool) : [] ∈ needed path ends := by
  obtain ⟨first, rest, split⟩ := List.exists_cons_of_ne_nil (List.splitOn_ne_nil '/' path)
  unfold needed names
  rw [split]
  exact List.mem_append_left _ List.mem_cons_self

/-- The tree that has no directories but those the path needs. -/
def wayTree (path : CString) (ends : Bool) : Tree where
  isDirectory := onTheWay path ends
  root := onTheWay_iff.mpr ⟨[], root_needed path ends, List.nil_prefix⟩
  above := by
    intro place further isPrefix isDirectory
    obtain ⟨last, isNeeded, reaches⟩ := onTheWay_iff.mp isDirectory
    exact onTheWay_iff.mpr ⟨last, isNeeded, isPrefix.trans reaches⟩

def everywhere : Tree where
  isDirectory _ := true
  root := rfl
  above _ _ _ _ := rfl

theorem resolve_everywhere (cwd : Place) (path : CString) :
    everywhere.resolve cwd path = some (destination (startOf cwd path) (names path)) :=
  resolve_eq_some.mpr ⟨fun _ _ => rfl, rfl⟩

section Following

variable {path text : CString} {ends : Bool}

theorem startOf_absolute (absolute : path.head? = some '/') (cwd : Place) :
    startOf cwd path = [] := if_pos absolute

theorem resolve_wayTree (absolute : path.head? = some '/') (cwd : Place) :
    (wayTree path ends).resolve cwd path = some (destination [] (names path)) := by
  rw [resolve_eq_some, startOf_absolute absolute]
  refine ⟨fun between member => onTheWay_iff.mpr ?_, rfl⟩
  exact ⟨between, List.mem_append_left _ member, List.prefix_rfl⟩

theorem Follows.resolve (follows : Follows path text ends) (absolute : path.head? = some '/')
    {tree : Tree} {cwd place : Place} (resolved : tree.resolve cwd path = some place)
    (ended : ends = true → tree.isDirectory place = true) :
    tree.resolve cwd text = some place := by
  rw [resolve_eq_some, startOf_absolute absolute] at resolved
  rw [resolve_eq_some, startOf_absolute follows.absolute]
  refine ⟨fun between member => ?_, follows.arrives.trans resolved.2⟩
  obtain ⟨further, isNeeded, isPrefix⟩ := onTheWay_iff.mp (follows.between between member)
  refine tree.above between further isPrefix ?_
  rcases List.mem_append.mp isNeeded with passed | last
  · exact resolved.1 further passed
  · cases ends with
    | false => cases last
    | true =>
        rw [List.mem_singleton.mp last, resolved.2]
        exact ended rfl

/-- Far enough down, a relative path leads somewhere else. -/
theorem relative_elsewhere (relative : text.head? ≠ some '/') (place : Place) :
    ∃ cwd, destination (startOf cwd text) (names text) ≠ place := by
  refine ⟨List.replicate (place.length + (names text).length + 1) ['d'], fun same => ?_⟩
  have far := destination_length
    (List.replicate (place.length + (names text).length + 1) ['d']) (names text)
  rw [startOf, if_neg relative] at same
  rw [same, List.length_replicate] at far
  omega

/-- A path follows another one exactly if it leads to the same place in every
tree, from every working directory, where the other one leads somewhere. -/
theorem follows_iff (absolute : path.head? = some '/') :
    Follows path text ends ↔
      ∀ (tree : Tree) (cwd place : Place), tree.isDirectory cwd = true →
        tree.resolve cwd path = some place → (ends = true → tree.isDirectory place = true) →
          tree.resolve cwd text = some place := by
  constructor
  · exact fun follows tree cwd place _ resolved ended =>
      follows.resolve absolute resolved ended
  · intro same
    have everywhereSame : ∀ cwd, destination (startOf cwd text) (names text) =
        destination [] (names path) := by
      intro cwd
      have resolved : everywhere.resolve cwd path = some (destination [] (names path)) := by
        rw [resolve_everywhere, startOf_absolute absolute]
      have also := same everywhere cwd _ rfl resolved fun _ => rfl
      rw [resolve_everywhere] at also
      exact Option.some.inj also
    have isAbsolute : text.head? = some '/' := by
      by_contra relative
      obtain ⟨cwd, elsewhere⟩ := relative_elsewhere relative (destination [] (names path))
      exact elsewhere (everywhereSame cwd)
    have onWay := same (wayTree path ends) [] _ (wayTree path ends).root
      (resolve_wayTree absolute []) fun isEnd => onTheWay_iff.mpr
        ⟨_, List.mem_append_right _ (by rw [isEnd]; exact List.mem_singleton_self _),
          List.prefix_rfl⟩
    rw [resolve_eq_some, startOf_absolute isAbsolute] at onWay
    exact ⟨isAbsolute, onWay.2, onWay.1⟩

end Following

end BuildLinux.PathWalk
