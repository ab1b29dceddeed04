/-
Going into a directory of the browser and back again.

The way in formats the path of an entry into an array of 512 characters, the way
back cuts the browsed path at its last slash.  The two are inverse to each other
exactly as long as the path of the entry fits the array.
-/

import BuildLinux.Concrete.FileBrowser

namespace BuildLinux.Concrete.BrowserNavigation

open CStrings TransitionSystem FileBrowser

/-! ### The list shows the browsed directory -/

/-- The path fits its array, and the buttons are those of the browsed directory
in some file system. -/
structure Shows (browser : Browser) : Prop where
  fits : browser.current_path.length < 512
  list : ∃ fs, browser.list = (showDir fs browser.current_path browser).list

theorem showDir_shows (fs : FileSystem) {path : CString} (fits : path.length < 512)
    (browser : Browser) : Shows (showDir fs path browser) := by
  have whole : bounded 512 path = path := bounded_short fits
  constructor
  · change (bounded 512 path).length < 512
    rw [whole]
    exact fits
  · refine ⟨fs, ?_⟩
    change (showDir fs path browser).list = (showDir fs (bounded 512 path) browser).list
    rw [whole]

theorem parentPath_fits {path : CString} (fits : path.length < 512) :
    (parentPath path).length < 512 := by
  have top : umsPath.length < 512 := by decide
  unfold parentPath
  split
  · exact top
  · split
    · split
      · exact Nat.lt_of_le_of_lt (List.length_take_le' _ _) fits
      · exact top
    · exact top

theorem dirButtons_fit {fs : FileSystem} {path button : CString}
    (member : button ∈ dirButtons fs path) : button.length < 512 := by
  unfold dirButtons at member
  cases listed : fs.opendir path with
  | none =>
      rw [listed] at member
      cases member
  | some entries =>
      rw [listed] at member
      obtain ⟨entry, _, made⟩ := List.mem_filterMap.mp member
      unfold dirButton at made
      obtain ⟨_, made⟩ := Option.ite_none_left_eq_some.mp made
      obtain ⟨_, made⟩ := Option.ite_none_left_eq_some.mp made
      obtain ⟨_, made⟩ := Option.ite_none_right_eq_some.mp made
      cases made
      have short := bounded_length 512 (path ++ '/' :: entry.d_name)
      omega

theorem Shows.button_fits {browser : Browser} (shows : Shows browser) {path : CString}
    (member : path ∈ browser.list) (notBack : path ≠ parentEntry) : path.length < 512 := by
  obtain ⟨fs, isList⟩ := shows.list
  rw [isList] at member
  rcases List.mem_append.mp member with isBack | inDirectory
  · split at isBack
    · cases isBack
    · exact absurd (List.mem_singleton.mp isBack) notBack
  · exact dirButtons_fit inDirectory

theorem btnEventCb_shows (fs : FileSystem) {path : CString} {browser : Browser}
    (shows : Shows browser) (member : path ∈ browser.list) :
    Shows (btnEventCb fs path browser) := by
  unfold btnEventCb
  split
  · exact showDir_shows fs (parentPath_fits shows.fits) browser
  · next notBack =>
      split
      · split
        · unfold showThumbnails
          split
          · exact shows
          · exact ⟨shows.fits, shows.list⟩
        · exact showDir_shows fs (shows.button_fits member notBack) browser
      · exact shows

theorem step_shows {before after : Browser} {event : Event} (shows : Shows before)
    (stepped : step before event = some after) : Shows after := by
  cases event with
  | click fs button =>
      unfold step at stepped
      cases found : before.list[button]? with
      | none => simp [found] at stepped
      | some path =>
          simp only [found, Option.some.injEq] at stepped
          rw [← stepped]
          exact btnEventCb_shows fs shows (List.mem_of_getElem? found)
  | back =>
      obtain ⟨_, result⟩ := Option.ite_none_right_eq_some.mp stepped
      cases result
      exact ⟨shows.fits, shows.list⟩
  | timer fs isValid =>
      obtain ⟨_, result⟩ := Option.ite_none_right_eq_some.mp stepped
      cases result
      cases isValid with
      | false => exact ⟨shows.fits, shows.list⟩
      | true =>
          have shown := showDir_shows fs shows.fits before
          exact ⟨shown.fits, shown.list⟩

theorem runs_show {history : List Event} {browser : Browser}
    (run : Runs browserSystem history browser) : Shows browser := by
  apply run.invariant fun _ browser => Shows browser
  · rintro initial ⟨fs, rfl⟩
    have top : umsPath.length < 512 := by decide
    exact showDir_shows fs top noBrowser
  · intro history before event after _ shows stepped
    exact step_shows shows stepped

/-! ### In and out -/

/-- `show_dir` lists the entry of the directory with this string. -/
def Lists (fs : FileSystem) (directory : CString) (entry : Dirent) (path : CString) : Prop :=
  ∃ entries, fs.opendir directory = some entries ∧ entry ∈ entries ∧
    dirButton fs directory entry = some path

theorem Lists.path_eq {fs : FileSystem} {directory path : CString} {entry : Dirent}
    (listed : Lists fs directory entry path) :
    path = bounded 512 (directory ++ '/' :: entry.d_name) := by
  obtain ⟨_, _, _, made⟩ := listed
  unfold dirButton at made
  obtain ⟨_, made⟩ := Option.ite_none_left_eq_some.mp made
  obtain ⟨_, made⟩ := Option.ite_none_left_eq_some.mp made
  obtain ⟨_, made⟩ := Option.ite_none_right_eq_some.mp made
  exact (Option.some.inj made).symm

theorem under_nonempty {path : CString} (under : Under umsPath path) : umsPath.length ≤ path.length := by
  rcases under with rfl | below
  · exact Nat.le_refl _
  · have longer := below.length_le
    rw [List.length_append] at longer
    omega

theorem folderName_child {name : CString} (simple : '/' ∉ name) (directory : CString) :
    folderName (directory ++ '/' :: name) = name := by
  rw [folderName, strrchr_append simple]
  simp

/-- The way back from an entry leads to the directory it is in. -/
theorem parentPath_child {directory name : CString} (under : Under umsPath directory)
    (simple : '/' ∉ name) : parentPath (directory ++ '/' :: name) = directory := by
  have long := under_nonempty under
  have deeper : directory ++ '/' :: name ≠ umsPath := by
    intro same
    have lengths := congrArg List.length same
    rw [List.length_append, List.length_cons] at lengths
    omega
  have notFirst : directory.length ≠ 0 := by
    have top : umsPath.length = 13 := by decide
    omega
  rw [parentPath, if_neg deeper, strrchr_append simple]
  dsimp only
  rw [if_pos notFirst]
  exact List.take_left

theorem under_not_back {path : CString} (under : Under umsPath path) : path ≠ parentEntry := by
  intro same
  have long := under_nonempty under
  rw [same] at long
  exact absurd long (by decide)

theorem step_clicked (browser : Browser) (fs : FileSystem) (button : Nat) {path : CString}
    (isButton : browser.list[button]? = some path) :
    step browser (.click fs button) = some (btnEventCb fs path browser) := by
  simp only [step, isButton]

theorem step_click {browser after : Browser} {fs : FileSystem} {button : Nat} {path : CString}
    (isButton : browser.list[button]? = some path)
    (stepped : step browser (.click fs button) = some after) :
    after = btnEventCb fs path browser := by
  rw [step_clicked browser fs button isButton] at stepped
  exact (Option.some.inj stepped).symm

theorem opened_list (fs : FileSystem) {path : CString} (under : Under umsPath path)
    (browser : Browser) : (showDir fs path browser).list[0]? = some parentEntry := by
  have notRoot : path ≠ ['/'] := by
    intro same
    have long := under_nonempty under
    rw [same] at long
    exact absurd long (by decide)
  change ((if path = ['/'] then [] else [parentEntry]) ++ dirButtons fs path)[0]? = _
  rw [if_neg notRoot]
  rfl

/-- Clicking a listed directory that is not a date leads exactly into it, and
Back exactly out of it, if and only if its path fits the array. -/
theorem navigation_exact_iff {history : List Event} {browser : Browser}
    (run : Runs browserSystem history browser) {fs : FileSystem} {entry : Dirent}
    {path : CString} (listed : Lists fs browser.current_path entry path)
    (simple : '/' ∉ entry.d_name) (notDate : isDateFolder entry.d_name = false) {button : Nat}
    (isButton : browser.list[button]? = some path) {now later : FileSystem}
    (present : now.stat path = some true) {opened back : Browser}
    (clicked : step browser (.click now button) = some opened)
    (returned : step opened (.click later 0) = some back) :
    (opened.current_path = browser.current_path ++ '/' :: entry.d_name ∧
        back.current_path = browser.current_path) ↔
      browser.current_path.length + 1 + entry.d_name.length < 512 := by
  have under := (runs_confined run).path
  have fits := (runs_show run).fits
  have child := under_child under entry.d_name
  have isPath := listed.path_eq
  have isOpened := step_click isButton clicked
  have pathUnder : Under umsPath path := by
    rw [isPath]
    exact bounded_path child
  unfold btnEventCb at isOpened
  rw [if_neg (under_not_back pathUnder), present] at isOpened
  constructor
  · rintro ⟨exactly, _⟩
    have openedShort : opened.current_path.length < 512 := by
      rw [isOpened]
      dsimp only
      split
      · unfold showThumbnails
        split
        · exact fits
        · exact fits
      · have short := bounded_length 512 path
        change (bounded 512 path).length < 512
        omega
    rw [exactly, List.length_append, List.length_cons] at openedShort
    omega
  · intro room
    have whole : path = browser.current_path ++ '/' :: entry.d_name := by
      rw [isPath]
      apply bounded_short
      rw [List.length_append, List.length_cons]
      omega
    have short : path.length < 512 := by
      rw [whole, List.length_append, List.length_cons]
      omega
    have notThumbnails : isDateFolder (folderName path) = false := by
      rw [whole, folderName_child simple]
      exact notDate
    dsimp only at isOpened
    rw [notThumbnails, if_neg Bool.false_ne_true] at isOpened
    have inside : opened.current_path = path := by
      rw [isOpened]
      exact bounded_short short
    have backButton : opened.list[0]? = some parentEntry := by
      rw [isOpened]
      exact opened_list now pathUnder browser
    have isBack := step_click backButton returned
    rw [btnEventCb, if_pos rfl, inside, whole, parentPath_child under simple] at isBack
    refine ⟨inside.trans whole, ?_⟩
    rw [isBack]
    exact bounded_short fits

theorem video_and_back :
    ∃ opened back : Browser,
      step (fileBrowserCreate (nested "video".toList) none)
          (.click (nested "video".toList) 1) = some opened ∧
        step opened (.click (nested "video".toList) 0) = some back ∧
        opened.current_path = umsPath ++ '/' :: "video".toList ∧ back.current_path = umsPath := by
  have run : Runs browserSystem [] (fileBrowserCreate (nested "video".toList) none) :=
    Runs.start ⟨_, rfl⟩
  have listed : Lists (nested "video".toList)
      (fileBrowserCreate (nested "video".toList) none).current_path ⟨"video".toList, true⟩
      "/userdata/ums/video".toList := ⟨_, rfl, List.mem_cons_self, by decide⟩
  have clicked : step (fileBrowserCreate (nested "video".toList) none)
      (.click (nested "video".toList) 1) = some insideVideo := by decide
  have returned : step insideVideo (.click (nested "video".toList) 0) =
      some (fileBrowserCreate (nested "video".toList) none) := by decide
  have isButton : (fileBrowserCreate (nested "video".toList) none).list[1]? =
      some "/userdata/ums/video".toList := by decide
  have exactly := (navigation_exact_iff run listed (by decide) (by decide) isButton rfl clicked
    returned).mpr (by decide)
  exact ⟨_, _, clicked, returned, exactly.1, exactly.2⟩

/-! ### A path that fills the array -/

/-- The browser in a directory that holds one directory of the given name. -/
def inside (directory name : CString) : Browser where
  current_path := directory
  list := [parentEntry, bounded 512 (directory ++ '/' :: name)]
  thumb_scr := false
  screens := 0
  timers := 0

theorem nested_button (directory : CString) {name : CString} (kept : isSkipped name = false) :
    dirButton (nested name) directory ⟨name, true⟩ =
      some (bounded 512 (directory ++ '/' :: name)) := by
  simp [nested, dirButton, kept]

theorem showDir_nested {directory name : CString} (under : Under umsPath directory)
    (fits : directory.length < 512) (kept : isSkipped name = false) {browser : Browser}
    (plain : browser.thumb_scr = false ∧ browser.screens = 0 ∧ browser.timers = 0) :
    showDir (nested name) directory browser = inside directory name := by
  have notRoot : directory ≠ ['/'] := by
    intro same
    have long := under_nonempty under
    rw [same] at long
    exact absurd long (by decide)
  have button : dirButtons (nested name) directory =
      [bounded 512 (directory ++ '/' :: name)] :=
    List.filterMap_cons_some (nested_button directory kept)
  rw [showDir, button, if_neg notRoot, bounded_short fits, plain.1, plain.2.1, plain.2.2]
  rfl

/-- A click on the only entry, when the file system then holds another name. -/
theorem click_inside {directory name next : CString} (under : Under umsPath directory)
    (fits : (directory ++ '/' :: name).length < 512) (simple : '/' ∉ name)
    (notDate : isDateFolder name = false) (kept : isSkipped next = false) :
    step (inside directory name) (.click (nested next) 1) =
      some (inside (directory ++ '/' :: name) next) := by
  have child := under_child under name
  have whole : bounded 512 (directory ++ '/' :: name) = directory ++ '/' :: name :=
    bounded_short fits
  have notDateFolder : isDateFolder (folderName (directory ++ '/' :: name)) = false := by
    rw [folderName_child simple]
    exact notDate
  rw [step_clicked (inside directory name) (nested next) 1 rfl, whole, btnEventCb, if_neg (under_not_back child)]
  change some (if isDateFolder (folderName (directory ++ '/' :: name)) = true then _ else
    showDir (nested next) (directory ++ '/' :: name) (inside directory name)) = _
  rw [notDateFolder, if_neg Bool.false_ne_true]
  exact congrArg some (showDir_nested child fits kept ⟨rfl, rfl, rfl⟩)

def longName : CString := List.replicate 248 'a'

def longInnerName : CString := List.replicate 247 'b'

def longDirectory : CString := umsPath ++ '/' :: longName

def fullDirectory : CString := longDirectory ++ '/' :: longInnerName

theorem longDirectory_length : longDirectory.length = 262 := by
  rw [longDirectory, List.length_append, List.length_cons, longName, List.length_replicate]
  rfl

theorem fullDirectory_length : fullDirectory.length = 510 := by
  rw [fullDirectory, List.length_append, List.length_cons, longDirectory_length, longInnerName,
    List.length_replicate]

/-- In a directory whose path takes 510 characters, the entry `c` leads back
into the same directory by a path that ends with the slash. -/
theorem deep_entry_missed :
    ∃ history browser path opened, Runs browserSystem history browser ∧
      Lists (nested "c".toList) browser.current_path ⟨"c".toList, true⟩ path ∧
      browser.list[1]? = some path ∧
      step browser (.click (nested "c".toList) 1) = some opened ∧
      opened.current_path ≠ browser.current_path ++ '/' :: "c".toList := by
  have simple (letter : Char) (other : '/' ≠ letter) (count : Nat) :
      '/' ∉ List.replicate count letter := by
    intro member
    exact other (List.eq_of_mem_replicate member)
  have notDate (count : Nat) (letter : Char) (many : count ≠ 8) :
      isDateFolder (List.replicate count letter) = false := by
    simp [isDateFolder, many]
  have notSkipped (count : Nat) (letter : Char) (first : letter = 'a' ∨ letter = 'b')
      (some : 0 < count) : isSkipped (List.replicate count letter) = false := by
    obtain ⟨less, rfl⟩ : ∃ less, count = less + 1 := ⟨count - 1, by omega⟩
    rcases first with rfl | rfl
    · rfl
    · rfl
  have top : Under umsPath umsPath := Or.inl rfl
  have below : Under umsPath longDirectory := under_child top _
  have begun : Runs browserSystem [] (inside umsPath longName) := by
    refine Runs.start ⟨nested longName, ?_⟩
    exact (showDir_nested top (by decide) (notSkipped 248 'a' (Or.inl rfl) (by decide))
      ⟨rfl, rfl, rfl⟩).symm
  have short : longDirectory.length < 512 := by
    rw [longDirectory_length]
    decide
  have first := Runs.next begun (click_inside top short (simple 'a' (by decide) 248)
    (notDate 248 'a' (by decide)) (notSkipped 247 'b' (Or.inr rfl) (by decide)))
  have full : fullDirectory.length < 512 := by
    rw [fullDirectory_length]
    decide
  have second : step (inside longDirectory longInnerName) (.click (nested "c".toList) 1) =
      some (inside fullDirectory "c".toList) :=
    click_inside below full (simple 'b' (by decide) 247) (notDate 247 'b' (by decide)) (by decide)
  have run := Runs.next first second
  have listed : Lists (nested "c".toList) fullDirectory ⟨"c".toList, true⟩
      (bounded 512 (fullDirectory ++ '/' :: "c".toList)) :=
    ⟨_, rfl, List.mem_cons_self, nested_button fullDirectory (by decide)⟩
  have clicked := step_clicked (inside fullDirectory "c".toList) (nested "c".toList) 1 rfl
  have opened := runs_show (Runs.next run clicked)
  refine ⟨_, _, _, _, run, listed, rfl, clicked, fun exactly => ?_⟩
  have whole : (fullDirectory ++ '/' :: "c".toList).length = 512 := by
    rw [List.length_append, fullDirectory_length]
    rfl
  have isFull : (inside fullDirectory "c".toList).current_path = fullDirectory := rfl
  have fits := opened.fits
  rw [exactly, isFull, whole] at fits
  omega

end BuildLinux.Concrete.BrowserNavigation
