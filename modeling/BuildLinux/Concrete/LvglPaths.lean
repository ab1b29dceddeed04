/-
The paths that package/lvgl/m_file.c gives to LVGL and takes back from it.

`make_lvgl_path` replaces the mount point by the letter of the drive; the open
callbacks of the drive skip two characters of what LVGL hands them.  LVGL hands
them the whole string, or the string without the letter and its colon.  What is
opened instead is the path only if that climbs out of the mount point itself.
-/

import BuildLinux.PathWalk

namespace BuildLinux.Concrete.LvglPaths

open CStrings PathWalk

def umsPrefix : CString := "/userdata/ums".toList

def driveLetter : Char := 'U'

/-- `make_lvgl_path` into an array of `buf_len` characters. -/
def makeLvglPath (full_path : CString) (buf_len : Nat) : CString :=
  let rel :=
    if umsPrefix.isPrefixOf full_path then full_path.drop umsPrefix.length else full_path
  bounded buf_len (driveLetter :: ':' :: rel)

/-! ### The callbacks of the drive -/

inductive FileMode where
  | rb
  | rbPlus
  | wbPlus
  deriving DecidableEq, Repr

/-- Where the process is and what it can open. -/
structure Process where
  tree : Tree
  cwd : Place
  inTree : tree.isDirectory cwd = true
  opens : Place → FileMode → Bool
  opensDir : Place → Bool
  onlyDirectories : ∀ place, opensDir place = true → tree.isDirectory place = true

def Process.resolve (process : Process) (path : CString) : Option Place :=
  process.tree.resolve process.cwd path

def openNamed (process : Process) (permits : Place → Bool) (path : CString) : Option Place :=
  if path = [] then none else (process.resolve path).filter permits

def fopen (process : Process) (path : CString) (mode : FileMode) : Option Place :=
  openNamed process (fun file => process.opens file mode) path

def opendir (process : Process) (path : CString) : Option Place :=
  openNamed process process.opensDir path

/-- The calls of `fopen` in `lv_fs_open_cb`; `wr` is `LV_FS_MODE_WR` of the mode. -/
def openReal (process : Process) (real_path : CString) (wr : Bool) : Option Place :=
  if wr then
    match fopen process real_path .rbPlus with
    | some file => some file
    | none => fopen process real_path .wbPlus
  else fopen process real_path .rb

/-- `path + 2`; none where that is behind the terminating zero. -/
def realPath (path : CString) : Option CString :=
  if path.length < 2 then none else some (path.drop 2)

def lvFsOpenCb (process : Process) (path : CString) (wr : Bool) :
    Option (Option Place) :=
  (realPath path).map fun real_path => openReal process real_path wr

def lvFsDirOpenCb (process : Process) (path : CString) : Option (Option Place) :=
  (realPath path).map (opendir process)

inductive Convention where
  | wholeString
  | withoutLetter
  deriving DecidableEq, Repr

def handed : Convention → CString → CString
  | .wholeString, path => path
  | .withoutLetter, path => path.drop 2

/-! ### Round trips -/

/-- Where the path leads somewhere, opening the LVGL path through the drive is opening it. -/
def OpensFile (convention : Convention) (path : CString) : Prop :=
  ∀ process wr, (process.resolve path).isSome = true →
    lvFsOpenCb process (handed convention (makeLvglPath path 256)) wr =
      some (openReal process path wr)

def OpensDirectory (convention : Convention) (path : CString) : Prop :=
  ∀ process, (process.resolve path).isSome = true →
    lvFsDirOpenCb process (handed convention (makeLvglPath path 256)) =
      some (opendir process path)

/-- The end of the path that is left for `fopen`: without the mount point, and without
the slash and the character behind it where the drive letter was already gone. -/
def remainder (convention : Convention) (path : CString) : CString :=
  match convention with
  | .wholeString => path.drop umsPrefix.length
  | .withoutLetter => path.drop (umsPrefix.length + 2)

theorem umsPrefix_slash (rest : CString) :
    "/userdata/ums/".toList ++ rest = umsPrefix ++ '/' :: rest := by
  have split : "/userdata/ums/".toList = umsPrefix ++ ['/'] := by decide
  rw [split, List.append_assoc]
  rfl

theorem makeLvglPath_ums {rest : CString} (short : rest.length < 253) :
    makeLvglPath (umsPrefix ++ '/' :: rest) 256 = driveLetter :: ':' :: '/' :: rest := by
  have isPrefix : umsPrefix.isPrefixOf (umsPrefix ++ '/' :: rest) = true :=
    List.isPrefixOf_iff_prefix.mpr (List.prefix_append _ _)
  unfold makeLvglPath
  rw [if_pos isPrefix, List.drop_left]
  refine bounded_short ?_
  rw [List.length_cons, List.length_cons, List.length_cons]
  omega

theorem remainder_ums (convention : Convention) (rest : CString) :
    remainder convention (umsPrefix ++ '/' :: rest) =
      match convention with
      | .wholeString => '/' :: rest
      | .withoutLetter => rest.drop 1 := by
  cases convention with
  | wholeString => exact List.drop_left
  | withoutLetter =>
      unfold remainder
      rw [List.drop_append]
      rfl

/-- Behind a string that is too short there is nothing. -/
theorem realPath_handed (convention : Convention) {rest : CString} (short : rest.length < 253) :
    realPath (handed convention (makeLvglPath (umsPrefix ++ '/' :: rest) 256)) =
        some (remainder convention (umsPrefix ++ '/' :: rest)) ∨
      realPath (handed convention (makeLvglPath (umsPrefix ++ '/' :: rest) 256)) = none ∧
        remainder convention (umsPrefix ++ '/' :: rest) = [] := by
  rw [makeLvglPath_ums short, remainder_ums]
  cases convention with
  | wholeString => exact Or.inl rfl
  | withoutLetter =>
      cases rest with
      | nil => exact Or.inr ⟨rfl, rfl⟩
      | cons letter more => exact Or.inl rfl

/-! ### What is opened -/

theorem openNamed_eq_some {process : Process} {permits : Place → Bool} {path : CString}
    {place : Place} :
    openNamed process permits path = some place ↔
      path ≠ [] ∧ process.resolve path = some place ∧ permits place = true := by
  unfold openNamed
  rw [Option.ite_none_left_eq_some, Option.filter_eq_some_iff]

theorem openNamed_congr {process : Process} {permits : Place → Bool} {path other : CString}
    (nonempty : path ≠ [] ∧ other ≠ []) (same : process.resolve path = process.resolve other) :
    openNamed process permits path = openNamed process permits other := by
  unfold openNamed
  rw [if_neg nonempty.1, if_neg nonempty.2, same]

theorem openReal_congr {process : Process} {path other : CString}
    (nonempty : path ≠ [] ∧ other ≠ []) (same : process.resolve path = process.resolve other)
    (wr : Bool) : openReal process path wr = openReal process other wr := by
  unfold openReal fopen
  rw [openNamed_congr nonempty same, openNamed_congr nonempty same, openNamed_congr nonempty same]

theorem nonempty_of_absolute {path : CString} (absolute : path.head? = some '/') : path ≠ [] := by
  intro empty
  rw [empty] at absolute
  cases absolute

/-- The process that can open everything there is in a tree. -/
def reader (tree : Tree) (cwd : Place) (inTree : tree.isDirectory cwd = true) : Process where
  tree := tree
  cwd := cwd
  inTree := inTree
  opens _ _ := true
  opensDir := tree.isDirectory
  onlyDirectories _ isDirectory := isDirectory

section RoundTrip

variable {convention : Convention} {rest : CString}

theorem ums_absolute (rest : CString) : (umsPrefix ++ '/' :: rest).head? = some '/' := rfl

theorem opensFile_iff (short : rest.length < 253) :
    OpensFile convention (umsPrefix ++ '/' :: rest) ↔
      Follows (umsPrefix ++ '/' :: rest) (remainder convention (umsPrefix ++ '/' :: rest))
        false := by
  have pathNonempty := nonempty_of_absolute (ums_absolute rest)
  have reached := realPath_handed convention short
  constructor
  · intro opens
    refine (follows_iff (ums_absolute rest)).mpr fun tree cwd place inTree resolved _ => ?_
    have asPath : openReal (reader tree cwd inTree) (umsPrefix ++ '/' :: rest) false =
        some place := by
      rw [openReal, if_neg Bool.false_ne_true, fopen]
      exact openNamed_eq_some.mpr ⟨pathNonempty, resolved, rfl⟩
    have same := opens (reader tree cwd inTree) false (Option.isSome_of_eq_some resolved)
    unfold lvFsOpenCb at same
    rcases reached with reached | ⟨reached, _⟩
    · rw [reached, asPath] at same
      exact (openNamed_eq_some.mp (Option.some.inj same)).2.1
    · rw [reached] at same
      cases same
  · intro follows process wr leads
    obtain ⟨place, resolved⟩ := Option.isSome_iff_exists.mp leads
    have textNonempty := nonempty_of_absolute follows.absolute
    have same := follows.resolve (ums_absolute rest) resolved fun impossible => by cases impossible
    unfold lvFsOpenCb
    rcases reached with reached | ⟨_, empty⟩
    · rw [reached]
      exact congrArg some
        (openReal_congr ⟨textNonempty, pathNonempty⟩ (same.trans resolved.symm) wr)
    · exact absurd empty textNonempty

theorem opensDirectory_iff (short : rest.length < 253) :
    OpensDirectory convention (umsPrefix ++ '/' :: rest) ↔
      Follows (umsPrefix ++ '/' :: rest) (remainder convention (umsPrefix ++ '/' :: rest))
        true := by
  have pathNonempty := nonempty_of_absolute (ums_absolute rest)
  have reached := realPath_handed convention short
  constructor
  · intro opens
    refine (follows_iff (ums_absolute rest)).mpr fun tree cwd place inTree resolved ended => ?_
    have asPath : opendir (reader tree cwd inTree) (umsPrefix ++ '/' :: rest) = some place :=
      openNamed_eq_some.mpr ⟨pathNonempty, resolved, ended rfl⟩
    have same := opens (reader tree cwd inTree) (Option.isSome_of_eq_some resolved)
    unfold lvFsDirOpenCb at same
    rcases reached with reached | ⟨reached, _⟩
    · rw [reached, asPath] at same
      exact (openNamed_eq_some.mp (Option.some.inj same)).2.1
    · rw [reached] at same
      cases same
  · intro follows process leads
    obtain ⟨place, resolved⟩ := Option.isSome_iff_exists.mp leads
    have textNonempty := nonempty_of_absolute follows.absolute
    unfold lvFsDirOpenCb
    rcases reached with reached | ⟨_, empty⟩
    · rw [reached]
      refine congrArg some (Option.ext fun other => ?_)
      unfold opendir
      rw [openNamed_eq_some, openNamed_eq_some]
      -- Only a directory is opened, and then both paths lead to it.
      constructor
      · rintro ⟨_, found, permitted⟩
        have here : place = other := by
          rw [← (resolve_eq_some.mp found).2, ← (resolve_eq_some.mp resolved).2,
            startOf_absolute (ums_absolute rest), startOf_absolute follows.absolute]
          exact follows.arrives.symm
        rw [← here] at permitted ⊢
        exact ⟨pathNonempty, resolved, permitted⟩
      · rintro ⟨_, found, permitted⟩
        exact ⟨textNonempty, follows.resolve (ums_absolute rest) found fun _ =>
          process.onlyDirectories other permitted, permitted⟩
    · exact absurd empty textNonempty

end RoundTrip

/-- A path comes back exactly if what is left of it leads to the same place, through
directories that the path goes through as well. -/
theorem round_trip_iff (convention : Convention) {path : CString}
    (below : "/userdata/ums/".toList <+: path) (short : path.length ≤ 240) :
    (OpensFile convention path ↔ Follows path (remainder convention path) false) ∧
      (OpensDirectory convention path ↔ Follows path (remainder convention path) true) := by
  obtain ⟨rest, rfl⟩ := below
  rw [umsPrefix_slash] at short ⊢
  have shorter : rest.length < 253 := by
    rw [List.length_append, List.length_cons] at short
    omega
  exact ⟨opensFile_iff shorter, opensDirectory_iff shorter⟩

/-- Up to the root directory and back. -/
def climbing : CString := "/userdata/ums/../../userdata/ums/photo.jpg".toList

theorem climbing_comes_back :
    OpensFile .wholeString climbing ∧ ¬OpensDirectory .withoutLetter climbing := by
  refine ⟨(round_trip_iff .wholeString ⟨_, rfl⟩ (by decide)).1.mpr ?_, fun opens => ?_⟩
  · exact ⟨rfl, by decide, List.all_eq_true.mp (by decide)⟩
  · have follows := (round_trip_iff .withoutLetter ⟨_, rfl⟩ (by decide)).2.mp opens
    exact absurd follows.absolute (by decide)

theorem names_ums (rest : CString) :
    names (umsPrefix ++ '/' :: rest) =
      [] :: "userdata".toList :: "ums".toList :: names rest := rfl

/-- What is left of an absolute remainder are names that the path ends with. -/
theorem names_remainder {convention : Convention} {rest : CString}
    (absolute : (remainder convention (umsPrefix ++ '/' :: rest)).head? = some '/') :
    ∃ front later, names rest = front ++ later ∧
      names (remainder convention (umsPrefix ++ '/' :: rest)) = [] :: later := by
  rw [remainder_ums] at absolute ⊢
  cases convention with
  | wholeString => exact ⟨[], names rest, rfl, rfl⟩
  | withoutLetter =>
      cases rest with
      | nil => cases absolute
      | cons letter more =>
          change more.head? = some '/' at absolute
          obtain ⟨later, rfl⟩ := List.head?_eq_some_iff.mp absolute
          exact ⟨[letter].splitOn '/', names later,
            List.splitOn_append_cons_self [letter] later, rfl⟩

/-- Without `..` no path comes back, by neither convention. -/
theorem plain_elsewhere (convention : Convention) {rest : CString}
    (plain : ['.', '.'] ∉ names rest) (ends : Bool) :
    ¬Follows (umsPrefix ++ '/' :: rest) (remainder convention (umsPrefix ++ '/' :: rest))
      ends := by
  intro follows
  obtain ⟨front, later, split, left⟩ := names_remainder follows.absolute
  have arrives := follows.arrives
  have plainLater : ['.', '.'] ∉ later := by
    rw [split] at plain
    exact fun member => plain (List.mem_append_right front member)
  have plainText : ['.', '.'] ∉ [] :: later := by
    simp [plainLater]
  have plainPath : ['.', '.'] ∉ [] :: "userdata".toList :: "ums".toList :: names rest := by
    simp [plain]
  rw [left, names_ums, destination_plain plainText, destination_plain plainPath, split,
    List.filter_cons_of_neg (by decide), List.filter_cons_of_neg (by decide),
    List.filter_cons_of_pos (by decide), List.filter_cons_of_pos (by decide),
    List.filter_append] at arrives
  have lengths := congrArg List.length arrives
  simp only [List.nil_append, List.length_cons, List.length_append] at lengths
  omega

def photo : CString := "/userdata/ums/photo.jpg".toList

def atRoot : Process := reader everywhere [] rfl

/-- By either convention there is a path for which another file is opened. -/
theorem drive_opens_another :
    (lvFsOpenCb atRoot (handed .wholeString (makeLvglPath photo 256)) false =
        some (some ["photo.jpg".toList]) ∧
      lvFsOpenCb atRoot (handed .withoutLetter (makeLvglPath photo 256)) false =
        some (some ["hoto.jpg".toList]) ∧
      openReal atRoot photo false =
        some ["userdata".toList, "ums".toList, "photo.jpg".toList]) ∧
    ¬∃ convention, ∀ path, "/userdata/ums/".toList <+: path → path.length ≤ 240 →
      OpensFile convention path ∧ OpensDirectory convention path := by
  have opened : lvFsOpenCb atRoot (handed .wholeString (makeLvglPath photo 256)) false =
        some (some ["photo.jpg".toList]) ∧
      lvFsOpenCb atRoot (handed .withoutLetter (makeLvglPath photo 256)) false =
        some (some ["hoto.jpg".toList]) ∧
      openReal atRoot photo false =
        some ["userdata".toList, "ums".toList, "photo.jpg".toList] := by decide
  refine ⟨opened, ?_⟩
  rintro ⟨convention, opens⟩
  have same := (opens photo ⟨"photo.jpg".toList, rfl⟩ (by decide)).1 atRoot false rfl
  rw [opened.2.2] at same
  cases convention with
  | wholeString =>
      rw [opened.1] at same
      exact absurd same (by decide)
  | withoutLetter =>
      rw [opened.2.1] at same
      exact absurd same (by decide)

end BuildLinux.Concrete.LvglPaths
