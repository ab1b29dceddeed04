/-
The directory browser of package/lvgl/m_file.c.

The list shows a Back entry and the directories below the browsed path, each
with the string its button keeps.  The events are clicks on these entries, the
Back button of the thumbnails, and the timer it starts.  Every event may find a
different file system.
-/

import BuildLinux.CStrings
import BuildLinux.TransitionSystem

namespace BuildLinux.Concrete.FileBrowser

open CStrings TransitionSystem

def umsPath : CString := "/userdata/ums".toList

def parentEntry : CString := "..".toList

structure Dirent where
  d_name : CString
  isDirectory : Bool
  deriving DecidableEq, Repr

/-- What `opendir` lists, and whether `stat` finds a directory. -/
structure FileSystem where
  opendir : CString → Option (List Dirent)
  stat : CString → Option Bool

/-- The browser with the objects its events come from: the buttons of the list
by their strings, the screens of thumbnails that exist, the timers that run. -/
structure Browser where
  current_path : CString
  list : List CString
  thumb_scr : Bool
  screens : Nat
  timers : Nat
  deriving DecidableEq, Repr

/-! ### show_dir and show_thumbnails -/

def isSkipped (name : CString) : Bool :=
  name == ".".toList || name == "..".toList || name == "thumb".toList ||
    name == "System Volume Information".toList

def dirButton (fs : FileSystem) (path : CString) (entry : Dirent) : Option CString :=
  if isSkipped entry.d_name then none
  else if !entry.isDirectory then none
  else
    let full_path := bounded 512 (path ++ '/' :: entry.d_name)
    if fs.stat full_path = some true then some full_path else none

def dirButtons (fs : FileSystem) (path : CString) : List CString :=
  match fs.opendir path with
  | none => []
  | some entries => entries.filterMap (dirButton fs path)

def showDir (fs : FileSystem) (path : CString) (browser : Browser) : Browser :=
  { browser with
    current_path := bounded 512 path
    list := (if path = ['/'] then [] else [parentEntry]) ++ dirButtons fs path }

def showThumbnails (fs : FileSystem) (dir_path : CString) (browser : Browser) : Browser :=
  match fs.opendir dir_path with
  | none => browser
  | some _ => { browser with thumb_scr := true, screens := browser.screens + 1 }

/-! ### The callbacks -/

def isDateFolder (name : CString) : Bool :=
  name.length == 8 && name.all Char.isDigit

def folderName (path : CString) : CString :=
  match strrchr '/' path with
  | some last => path.drop (last + 1)
  | none => path

/-- The directory that the Back entry shows. -/
def parentPath (current_path : CString) : CString :=
  if current_path = umsPath then umsPath
  else
    match strrchr '/' current_path with
    | some last => if last ≠ 0 then current_path.take last else umsPath
    | none => umsPath

def btnEventCb (fs : FileSystem) (path : CString) (browser : Browser) : Browser :=
  if path = parentEntry then showDir fs (parentPath browser.current_path) browser
  else
    match fs.stat path with
    | some true =>
        if isDateFolder (folderName path) then showThumbnails fs path browser
        else showDir fs path browser
    | _ => browser

def backBtnCb (browser : Browser) : Browser :=
  { browser with timers := browser.timers + 1 }

/-- The timer; `isValid` tells whether the list still exists. -/
def backBtnTimerCb (fs : FileSystem) (isValid : Bool) (browser : Browser) : Browser :=
  let closed : Browser :=
    { browser with
      thumb_scr := false
      screens := if browser.thumb_scr then browser.screens - 1 else browser.screens }
  let shown := if isValid then showDir fs closed.current_path closed else closed
  { shown with timers := shown.timers - 1 }

def noBrowser : Browser where
  current_path := []
  list := []
  thumb_scr := false
  screens := 0
  timers := 0

def fileBrowserCreate (fs : FileSystem) (start_path : Option CString) : Browser :=
  showDir fs (start_path.getD umsPath) noBrowser

/-! ### Sessions -/

inductive Event where
  | click (fs : FileSystem) (button : Nat)
  | back
  | timer (fs : FileSystem) (isValid : Bool)

/-- An event needs the object it comes from. -/
def step (browser : Browser) : Event → Option Browser
  | .click fs button =>
      match browser.list[button]? with
      | some path => some (btnEventCb fs path browser)
      | none => none
  | .back => if 0 < browser.screens then some (backBtnCb browser) else none
  | .timer fs isValid =>
      if 0 < browser.timers then some (backBtnTimerCb fs isValid browser) else none

def browserSystem : System Browser Event where
  Initial browser := ∃ fs, browser = fileBrowserCreate fs none
  Step before event after := step before event = some after

/-! ### Confinement -/

/-- The browsed path and the strings of the buttons stay under the start path. -/
structure Confined (browser : Browser) : Prop where
  path : Under umsPath browser.current_path
  buttons : ∀ path ∈ browser.list, path = parentEntry ∨ Under umsPath path

theorem bounded_path {path : CString} (under : Under umsPath path) :
    Under umsPath (bounded 512 path) :=
  under_bounded (by decide) under

theorem dirButtons_under (fs : FileSystem) {path : CString} (under : Under umsPath path) :
    ∀ button ∈ dirButtons fs path, Under umsPath button := by
  intro button member
  unfold dirButtons at member
  cases listed : fs.opendir path with
  | none =>
      rw [listed] at member
      cases member
  | some entries =>
      rw [listed] at member
      obtain ⟨entry, _, made⟩ := List.mem_filterMap.mp member
      unfold dirButton at made
      obtain ⟨_, made⟩ := Option.ite_none_left_eq_some.mp made
      obtain ⟨_, made⟩ := Option.ite_none_left_eq_some.mp made
      obtain ⟨_, made⟩ := Option.ite_none_right_eq_some.mp made
      cases made
      exact bounded_path (under_child under entry.d_name)

theorem showDir_confined (fs : FileSystem) {path : CString} (under : Under umsPath path)
    (browser : Browser) : Confined (showDir fs path browser) := by
  refine ⟨bounded_path under, fun button member => ?_⟩
  rcases List.mem_append.mp member with isBack | inDirectory
  · by_cases top : path = ['/']
    · rw [if_pos top] at isBack
      cases isBack
    · rw [if_neg top] at isBack
      exact Or.inl (List.mem_singleton.mp isBack)
  · exact Or.inr (dirButtons_under fs under button inDirectory)

theorem parentPath_under {path : CString} (under : Under umsPath path) :
    Under umsPath (parentPath path) := by
  unfold parentPath
  split
  · exact Or.inl rfl
  · next notTop =>
      have below := under.resolve_left notTop
      cases found : strrchr '/' path with
      | none => exact Or.inl rfl
      | some last =>
          by_cases leading : last = 0
          · exact Or.inl (if_neg (not_not_intro leading))
          · change Under umsPath (if last ≠ 0 then path.take last else umsPath)
            rw [if_pos leading]
            exact under_cut below found

theorem showThumbnails_confined (fs : FileSystem) (dir_path : CString) {browser : Browser}
    (confined : Confined browser) : Confined (showThumbnails fs dir_path browser) := by
  unfold showThumbnails
  cases fs.opendir dir_path with
  | none => exact confined
  | some entries => exact ⟨confined.path, confined.buttons⟩

theorem btnEventCb_confined (fs : FileSystem) {path : CString} {browser : Browser}
    (confined : Confined browser) (button : path = parentEntry ∨ Under umsPath path) :
    Confined (btnEventCb fs path browser) := by
  unfold btnEventCb
  split
  · exact showDir_confined fs (parentPath_under confined.path) browser
  · next notBack =>
      have under := button.resolve_left notBack
      split
      · split
        · exact showThumbnails_confined fs path confined
        · exact showDir_confined fs under browser
      · exact confined

theorem backBtnTimerCb_confined (fs : FileSystem) (isValid : Bool) {browser : Browser}
    (confined : Confined browser) : Confined (backBtnTimerCb fs isValid browser) := by
  cases isValid with
  | false => exact ⟨confined.path, confined.buttons⟩
  | true =>
      have shown := showDir_confined fs confined.path browser
      exact ⟨shown.path, shown.buttons⟩

theorem step_confined {before after : Browser} {event : Event} (confined : Confined before)
    (stepped : step before event = some after) : Confined after := by
  cases event with
  | click fs button =>
      change (match before.list[button]? with
        | some path => some (btnEventCb fs path before)
        | none => none) = some after at stepped
      cases found : before.list[button]? with
      | none =>
          rw [found] at stepped
          cases stepped
      | some path =>
          rw [found] at stepped
          cases stepped
          exact btnEventCb_confined fs confined
            (confined.buttons path (List.mem_of_getElem? found))
  | back =>
      obtain ⟨_, result⟩ := Option.ite_none_right_eq_some.mp stepped
      cases result
      exact ⟨confined.path, confined.buttons⟩
  | timer fs isValid =>
      obtain ⟨_, result⟩ := Option.ite_none_right_eq_some.mp stepped
      cases result
      exact backBtnTimerCb_confined fs isValid confined

theorem runs_confined {history : List Event} {browser : Browser}
    (run : Runs browserSystem history browser) : Confined browser := by
  apply run.invariant fun _ browser => Confined browser
  · rintro initial ⟨fs, rfl⟩
    exact showDir_confined fs (Or.inl rfl) noBrowser
  · intro history before event after _ confined stepped
    exact step_confined confined stepped

/-- Whatever the file system holds and the user does, the browsed path is
`/userdata/ums` or begins with it and a slash. -/
theorem browser_confined {history : List Event} {browser : Browser}
    (run : Runs browserSystem history browser) :
    browser.current_path = "/userdata/ums".toList ∨
      "/userdata/ums/".toList <+: browser.current_path :=
  (runs_confined run).path

/-- A file system in which every directory holds one directory of the given name. -/
def nested (name : CString) : FileSystem where
  opendir _ := some [{ d_name := name, isDirectory := true }]
  stat _ := some true

def insideVideo : Browser where
  current_path := "/userdata/ums/video".toList
  list := ["..".toList, "/userdata/ums/video/video".toList]
  thumb_scr := false
  screens := 0
  timers := 0

theorem video_confined :
    ∃ history, Runs browserSystem history insideVideo ∧
      (insideVideo.current_path = "/userdata/ums".toList ∨
        "/userdata/ums/".toList <+: insideVideo.current_path) := by
  have opened : step (fileBrowserCreate (nested "video".toList) none)
      (.click (nested "video".toList) 1) = some insideVideo := by decide
  have run : Runs browserSystem [.click (nested "video".toList) 1] insideVideo :=
    Runs.next (Runs.start ⟨_, rfl⟩) opened
  exact ⟨_, run, browser_confined run⟩

end BuildLinux.Concrete.FileBrowser
