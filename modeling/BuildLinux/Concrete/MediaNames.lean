/-
The names of media files, from the recorder of package/ffmpeg/video_save.c to the
browser of package/lvgl/m_file.c and back to the player.

The recorder builds the folder and the file name from the date, the time and an
index.  The browser takes a file for a video by its extension in any letter
case, the player by the extension alone.
-/

import BuildLinux.DecimalText
import BuildLinux.Concrete.BrowserNavigation
import BuildLinux.Concrete.Thumbnails
import BuildLinux.Concrete.VideoPlayer

namespace BuildLinux.Concrete.MediaNames

open CStrings DecimalText
open FileBrowser (isDateFolder folderName)
open BrowserNavigation (folderName_child)
open LvglPaths (makeLvglPath)
open Thumbnails (isImage isVideo hasExtension imageExtensions videoExtensions strcasecmp)
open VideoPlayer (Attempt Status isMp4 lvExampleOpenVideo)

/-! ### thumb_click_cb -/

/-- What is on the screen: whether the thumbnails exist and are hidden, the
source of the big picture, and how the player's last open ended. -/
structure Screen where
  thumb_scr : Option Bool
  big_img : Option CString
  video_cont : Option Status
  deriving DecidableEq, Repr

/-- `lv_obj_add_flag(g_browser.thumb_scr, LV_OBJ_FLAG_HIDDEN)` if there are any. -/
def Screen.hideThumbs (screen : Screen) : Screen :=
  { screen with thumb_scr := screen.thumb_scr.map fun _ => true }

/-- A click; `attempt` is what the player's calls answer, its path apart. -/
def thumbClickCb (video_path : CString) (attempt : Attempt) (video : Nat) (screen : Screen) :
    Screen :=
  if isImage video_path then
    { screen.hideThumbs with big_img := some (makeLvglPath video_path 256) }
  else if isVideo video_path then
    { screen.hideThumbs with
      video_cont :=
        some (lvExampleOpenVideo { attempt with full_path := some video_path } video).1 }
  else screen

def VideoBranch (video_path : CString) : Prop :=
  isImage video_path = false ∧ isVideo video_path = true

/-- No click on the path has the player return because of its name. -/
def PlayerAgrees (video_path : CString) : Prop :=
  VideoBranch video_path → ∀ attempt video screen,
    (thumbClickCb video_path attempt video screen).video_cont ≠ some .rejected

/-- The extension is that of a film, but not the one that the player knows. -/
def Unplayable (video_path : CString) : Prop :=
  ∃ dot, strrchr '.' video_path = some dot ∧
    (strcasecmp (video_path.drop dot) ".avi".toList = true ∨
      strcasecmp (video_path.drop dot) ".mov".toList = true ∨
      strcasecmp (video_path.drop dot) ".mp4".toList = true ∧
        video_path.drop dot ≠ ".mp4".toList)

/-- An open in which every call succeeds. -/
def everything : Attempt where
  full_path := none
  succeeds _ := true
  findStreamInfo := true
  hasVideoStream := true
  findDecoder := true

def listShown : Screen where
  thumb_scr := some false
  big_img := none
  video_cont := none

theorem lvExampleOpenVideo_rejected (attempt : Attempt) (video : Nat) :
    (lvExampleOpenVideo attempt video).1 = .rejected ↔ isMp4 attempt.full_path = false := by
  constructor
  · intro rejected
    cases known : isMp4 attempt.full_path with
    | false => rfl
    | true =>
        unfold lvExampleOpenVideo at rejected
        rw [known, if_neg (by decide)] at rejected
        dsimp only at rejected
        repeat' split at rejected
        all_goals cases rejected
  · intro unknown
    rw [VideoPlayer.open_rejected unknown video]

theorem click_rejected_iff {video_path : CString} (branch : VideoBranch video_path)
    (attempt : Attempt) (video : Nat) (screen : Screen) :
    (thumbClickCb video_path attempt video screen).video_cont = some .rejected ↔
      isMp4 (some video_path) = false := by
  rw [thumbClickCb, branch.1, branch.2]
  exact (Option.some_inj.trans (lvExampleOpenVideo_rejected _ video))

theorem isMp4_iff {path : CString} {dot : Nat} (found : strrchr '.' path = some dot) :
    isMp4 (some path) = true ↔ path.drop dot = ".mp4".toList := by
  unfold isMp4
  dsimp only
  rw [found]
  exact beq_iff_eq

theorem isVideo_iff {path : CString} {dot : Nat} (found : strrchr '.' path = some dot) :
    isVideo path = true ↔
      strcasecmp (path.drop dot) ".mp4".toList = true ∨
        strcasecmp (path.drop dot) ".avi".toList = true ∨
        strcasecmp (path.drop dot) ".mov".toList = true := by
  unfold isVideo hasExtension
  rw [found, List.any_eq_true]
  simp [videoExtensions]

/-- A click on a film is refused by the player exactly when the extension is not
its own, to the letter. -/
theorem player_agrees_iff (video_path : CString) :
    PlayerAgrees video_path ↔ ¬Unplayable video_path := by
  constructor
  · rintro agrees ⟨dot, found, kind⟩
    have video : isVideo video_path = true := by
      rw [isVideo_iff found]
      rcases kind with avi | mov | ⟨mp4, _⟩
      · exact Or.inr (Or.inl avi)
      · exact Or.inr (Or.inr mov)
      · exact Or.inl mp4
    have branch : VideoBranch video_path := ⟨Thumbnails.video_not_image video, video⟩
    have another : video_path.drop dot ≠ ".mp4".toList := by
      rcases kind with avi | mov | ⟨_, another⟩
      · exact fun same => absurd avi (by rw [same]; decide)
      · exact fun same => absurd mov (by rw [same]; decide)
      · exact another
    have refused := Bool.eq_false_iff.mpr (mt (isMp4_iff found).mp another)
    exact agrees branch everything 0 listShown
      ((click_rejected_iff branch everything 0 listShown).mpr refused)
  · intro playable branch attempt video screen rejected
    have refused := (click_rejected_iff branch attempt video screen).mp rejected
    cases found : strrchr '.' video_path with
    | none =>
        have plain := branch.2
        rw [isVideo, hasExtension, found] at plain
        cases plain
    | some dot =>
        have another := mt (isMp4_iff found).mpr (Bool.eq_false_iff.mp refused)
        refine playable ⟨dot, found, ?_⟩
        rcases (isVideo_iff found).mp branch.2 with mp4 | avi | mov
        · exact Or.inr (Or.inr ⟨mp4, another⟩)
        · exact Or.inl avi
        · exact Or.inr (Or.inl mov)

def capitals : CString := "/userdata/ums/video/20250101/CLIP.MP4".toList

/-- The thumbnails are hidden, and the player has returned. -/
theorem capitals_refused :
    thumbClickCb capitals everything 0 listShown =
        { thumb_scr := some true, big_img := none, video_cont := some .rejected } ∧
      ¬PlayerAgrees capitals := by
  have clicked : thumbClickCb capitals everything 0 listShown =
      { thumb_scr := some true, big_img := none, video_cont := some .rejected } := by decide
  refine ⟨clicked, fun agrees => ?_⟩
  exact agrees ⟨by decide, by decide⟩ everything 0 listShown (congrArg Screen.video_cont clicked)

/-! ### GenerateMediaPath -/

/-- What `GetCurDateTime` gives. -/
structure DateTimeStruct where
  tm_year : Int
  tm_mon : Int
  tm_mday : Int
  tm_hour : Int
  tm_min : Int
  tm_sec : Int
  deriving DecidableEq, Repr

structure MediaPath where
  folder : CString
  videoPath : CString
  deriving DecidableEq, Repr

/-- The year is printed with `%d`, the month and the day with `%02d`. -/
def printDate (curDateTime : DateTimeStruct) : CString :=
  printD 0 curDateTime.tm_year ++ printD 2 curDateTime.tm_mon ++ printD 2 curDateTime.tm_mday

def printTime (curDateTime : DateTimeStruct) : CString :=
  printD 2 curDateTime.tm_hour ++ printD 2 curDateTime.tm_min ++ printD 2 curDateTime.tm_sec

def videoDirectory : CString := "/userdata/ums/video".toList

def folderFormat (curDateTime : DateTimeStruct) : CString :=
  videoDirectory ++ '/' :: printDate curDateTime

def prefixFormat (curDateTime : DateTimeStruct) : CString :=
  printDate curDateTime ++ '_' :: printTime curDateTime

def videoFormat (folder filePrefix : CString) (index : Int) : CString :=
  folder ++ '/' :: (filePrefix ++ '_' :: (printD 3 index ++ ".mp4".toList))

def generateMediaPath (curDateTime : DateTimeStruct) (folderSize videoSize : Nat) (index : Int) :
    MediaPath :=
  let folder := bounded folderSize (folderFormat curDateTime)
  let filePrefix := bounded 64 (prefixFormat curDateTime)
  { folder := folder
    videoPath := bounded videoSize (videoFormat folder filePrefix index) }

/-- The fields of a date and time with a year of four digits; a day that the
month does not have is as good here as any. -/
structure DateTimeStruct.Valid (time : DateTimeStruct) : Prop where
  year : 1000 ≤ time.tm_year ∧ time.tm_year ≤ 9999
  month : 1 ≤ time.tm_mon ∧ time.tm_mon ≤ 12
  day : 1 ≤ time.tm_mday ∧ time.tm_mday ≤ 31
  hour : 0 ≤ time.tm_hour ∧ time.tm_hour ≤ 23
  minute : 0 ≤ time.tm_min ∧ time.tm_min ≤ 59
  second : 0 ≤ time.tm_sec ∧ time.tm_sec ≤ 60

def DateTimeStruct.date (time : DateTimeStruct) : List Int :=
  [time.tm_year, time.tm_mon, time.tm_mday]

def DateTimeStruct.clock (time : DateTimeStruct) : List Int :=
  [time.tm_hour, time.tm_min, time.tm_sec]

/-- A recording is earlier by its date, its time of day or its index. -/
def Earlier (first : DateTimeStruct) (index : Int) (second : DateTimeStruct) (other : Int) : Prop :=
  first.date ++ (first.clock ++ [index]) < second.date ++ (second.clock ++ [other])

instance (first : DateTimeStruct) (index : Int) (second : DateTimeStruct) (other : Int) :
    Decidable (Earlier first index second other) :=
  inferInstanceAs (Decidable (_ < _))

/-- The arrays hold the whole folder and the whole path. -/
structure LargeEnough (folderSize videoSize : Nat) (time : DateTimeStruct) (index : Int) : Prop where
  folder : (folderFormat time).length < folderSize
  videoPath : (videoFormat (folderFormat time) (prefixFormat time) index).length < videoSize

def dateFields (time : DateTimeStruct) : List Field :=
  [⟨4, time.tm_year⟩, ⟨2, time.tm_mon⟩, ⟨2, time.tm_mday⟩]

def clockFields (time : DateTimeStruct) : List Field :=
  [⟨2, time.tm_hour⟩, ⟨2, time.tm_min⟩, ⟨2, time.tm_sec⟩]

section Names

variable {time : DateTimeStruct} (valid : time.Valid)

include valid

theorem dateFields_fit : ∀ field ∈ dateFields time, field.Fits := by
  obtain ⟨year, month, day, _, _, _⟩ := valid
  intro field member
  simp only [dateFields, List.mem_cons, List.not_mem_nil, or_false] at member
  rcases member with rfl | rfl | rfl
  all_goals constructor <;> dsimp only <;> omega

theorem clockFields_fit : ∀ field ∈ clockFields time, field.Fits := by
  obtain ⟨_, _, _, hour, minute, second⟩ := valid
  intro field member
  simp only [clockFields, List.mem_cons, List.not_mem_nil, or_false] at member
  rcases member with rfl | rfl | rfl
  all_goals constructor <;> dsimp only <;> omega

/-- A year of four digits fills its field without zeros. -/
theorem printDate_fields : printDate time = fieldsText (dateFields time) := by
  have wide : printD 0 time.tm_year = printD 4 time.tm_year := by
    have natural : 0 ≤ time.tm_year := by have := valid.year; omega
    rw [printD_natural 0 natural, printD_natural 4 natural]
    exact zeroPadded_filled (by omega) (by have := valid.year; omega)
  rw [printDate, wide]
  simp [fieldsText, dateFields, Field.text]

omit valid in
theorem printTime_fields : printTime time = fieldsText (clockFields time) := by
  simp [printTime, fieldsText, clockFields, Field.text]

theorem printDate_length : (printDate time).length = 8 := by
  rw [printDate_fields valid, fieldsText_length (dateFields_fit valid)]
  rfl

theorem printTime_length : (printTime time).length = 6 := by
  rw [printTime_fields, fieldsText_length (clockFields_fit valid)]
  rfl

theorem generateMediaPath_whole {folderSize videoSize : Nat} {index : Int}
    (large : LargeEnough folderSize videoSize time index) :
    generateMediaPath time folderSize videoSize index =
      { folder := folderFormat time
        videoPath := videoFormat (folderFormat time) (prefixFormat time) index } := by
  have short : (prefixFormat time).length < 64 := by
    rw [prefixFormat, List.length_append, List.length_cons, printDate_length valid,
      printTime_length valid]
    decide
  unfold generateMediaPath
  dsimp only
  rw [bounded_short large.folder, bounded_short short, bounded_short large.videoPath]

theorem folder_isDateFolder : isDateFolder (folderName (folderFormat time)) = true := by
  have digits : ∀ letter ∈ printDate time, letter.isDigit = true := by
    rw [printDate_fields valid]
    exact fieldsText_digits (dateFields_fit valid)
  have simple : '/' ∉ printDate time := by
    intro slash
    have digit : '/'.isDigit = true := digits '/' slash
    cases digit
  rw [folderFormat, folderName_child simple, isDateFolder, printDate_length valid]
  exact Bool.and_eq_true_iff.mpr ⟨rfl, List.all_eq_true.mpr digits⟩

end Names

theorem videoFormat_extension (folder filePrefix : CString) (index : Int) :
    ∃ dot, strrchr '.' (videoFormat folder filePrefix index) = some dot ∧
      (videoFormat folder filePrefix index).drop dot = ".mp4".toList := by
  have split : videoFormat folder filePrefix index =
      (folder ++ '/' :: (filePrefix ++ '_' :: printD 3 index)) ++ '.' :: "mp4".toList := by
    simp [videoFormat]
  rw [split]
  refine ⟨_, strrchr_append (by decide) _, ?_⟩
  rw [List.drop_left]
  rfl

/-- The video's path as its fields of fixed width, the index apart. -/
theorem videoFormat_parts (time : DateTimeStruct) (index : Int) :
    videoFormat (folderFormat time) (prefixFormat time) index =
      (videoDirectory ++ ['/']) ++ (printDate time ++ (['/'] ++ (printDate time ++
        (['_'] ++ (printTime time ++ (['_'] ++ (printD 3 index ++ ".mp4".toList))))))) := by
  simp [videoFormat, folderFormat, prefixFormat]

section Order

variable {first second : DateTimeStruct} (firstValid : first.Valid) (secondValid : second.Valid)

include firstValid secondValid

theorem printDate_lt_iff :
    (printDate first < printDate second ↔ first.date < second.date) ∧
      (printDate first = printDate second ↔ first.date = second.date) := by
  rw [printDate_fields firstValid, printDate_fields secondValid]
  exact fieldsText_lt_iff (dateFields_fit firstValid) (dateFields_fit secondValid) rfl

theorem printTime_lt_iff :
    (printTime first < printTime second ↔ first.clock < second.clock) ∧
      (printTime first = printTime second ↔ first.clock = second.clock) := by
  rw [printTime_fields, printTime_fields]
  exact fieldsText_lt_iff (clockFields_fit firstValid) (clockFields_fit secondValid) rfl

theorem videoFormat_injective {index other : Int} (natural : 0 ≤ index) (otherNatural : 0 ≤ other)
    (same : videoFormat (folderFormat first) (prefixFormat first) index =
      videoFormat (folderFormat second) (prefixFormat second) other) :
    first = second ∧ index = other := by
  have dates : (printDate first).length = (printDate second).length := by
    rw [printDate_length firstValid, printDate_length secondValid]
  have times : (printTime first).length = (printTime second).length := by
    rw [printTime_length firstValid, printTime_length secondValid]
  rw [videoFormat_parts, videoFormat_parts] at same
  obtain ⟨sameDate, same⟩ := List.append_inj (List.append_cancel_left same) dates
  obtain ⟨_, same⟩ := List.append_inj (List.append_cancel_left same) dates
  obtain ⟨sameTime, same⟩ := List.append_inj (List.append_cancel_left same) times
  have sameIndex := printD_injective natural otherNatural
    (List.append_cancel_right (List.append_cancel_left same))
  have date := (printDate_lt_iff firstValid secondValid).2.mp sameDate
  have clock := (printTime_lt_iff firstValid secondValid).2.mp sameTime
  cases first
  cases second
  simp only [DateTimeStruct.date, DateTimeStruct.clock, List.cons.injEq, and_true] at date clock
  simp only [DateTimeStruct.mk.injEq]
  exact ⟨⟨date.1, date.2.1, date.2.2, clock.1, clock.2.1, clock.2.2⟩, sameIndex⟩

theorem videoFormat_lt_iff {index other : Int} (natural : 0 ≤ index) (otherNatural : 0 ≤ other)
    (small : index ≤ 999) (otherSmall : other ≤ 999) :
    videoFormat (folderFormat first) (prefixFormat first) index <
        videoFormat (folderFormat second) (prefixFormat second) other ↔
      Earlier first index second other := by
  have dates : (printDate first).length = (printDate second).length := by
    rw [printDate_length firstValid, printDate_length secondValid]
  have times : (printTime first).length = (printTime second).length := by
    rw [printTime_length firstValid, printTime_length secondValid]
  have indexFits : Field.Fits ⟨3, index⟩ := ⟨Nat.succ_pos 2, natural, by dsimp only; omega⟩
  have otherFits : Field.Fits ⟨3, other⟩ := ⟨Nat.succ_pos 2, otherNatural, by dsimp only; omega⟩
  have indices : (printD 3 index).length = (printD 3 other).length :=
    indexFits.length.trans otherFits.length.symm
  have index_lt : printD 3 index < printD 3 other ↔ [index] < [other] := by
    have fields := (@fieldsText_lt_iff [⟨3, index⟩] [⟨3, other⟩]
      (List.forall_mem_singleton.mpr indexFits) (List.forall_mem_singleton.mpr otherFits) rfl).1
    simpa [fieldsText, Field.text] using fields
  have tail_lt : printD 3 index ++ ".mp4".toList < printD 3 other ++ ".mp4".toList ↔
      [index] < [other] := by
    rw [append_lt_append_iff indices, index_lt]
    exact ⟨fun less => less.elim id fun same => absurd same.2 (List.lt_irrefl _), Or.inl⟩
  obtain ⟨date_lt, date_eq⟩ := printDate_lt_iff firstValid secondValid
  obtain ⟨clock_lt, clock_eq⟩ := printTime_lt_iff firstValid secondValid
  rw [videoFormat_parts, videoFormat_parts, append_lt_append_left_iff,
    append_lt_append_iff dates, append_lt_append_left_iff, append_lt_append_iff dates,
    append_lt_append_left_iff, append_lt_append_iff times, append_lt_append_left_iff, tail_lt,
    Earlier, append_lt_append_iff (by rfl), append_lt_append_iff (by rfl), date_lt, date_eq,
    clock_lt, clock_eq]
  -- The date stands in the folder and again in the name.
  constructor
  · rintro (earlier | ⟨_, later⟩)
    · exact Or.inl earlier
    · exact later
  · rintro (earlier | ⟨same, later⟩)
    · exact Or.inl earlier
    · exact Or.inr ⟨same, Or.inr ⟨same, later⟩⟩

end Order

/-- Different recordings have different paths, ordered by time and index as long
as the index has three digits; the browser takes the folder for a date and the
file for a video, and the player does not refuse its name. -/
theorem media_paths {folderSize videoSize : Nat} {first second : DateTimeStruct}
    {index other : Int} (firstValid : first.Valid) (secondValid : second.Valid)
    (natural : 0 ≤ index) (otherNatural : 0 ≤ other)
    (large : LargeEnough folderSize videoSize first index)
    (otherLarge : LargeEnough folderSize videoSize second other) :
    let path := generateMediaPath first folderSize videoSize index
    let otherPath := generateMediaPath second folderSize videoSize other
    ((first, index) ≠ (second, other) → path.videoPath ≠ otherPath.videoPath) ∧
      (index ≤ 999 → other ≤ 999 →
        (path.videoPath < otherPath.videoPath ↔ Earlier first index second other)) ∧
      isDateFolder (folderName path.folder) = true ∧
      isVideo path.videoPath = true ∧ isMp4 (some path.videoPath) = true := by
  dsimp only
  rw [generateMediaPath_whole firstValid large, generateMediaPath_whole secondValid otherLarge]
  obtain ⟨dot, found, extension⟩ :=
    videoFormat_extension (folderFormat first) (prefixFormat first) index
  refine ⟨fun different same => ?_, ?_, folder_isDateFolder firstValid, ?_, ?_⟩
  · obtain ⟨sameTime, sameIndex⟩ :=
      videoFormat_injective firstValid secondValid natural otherNatural same
    exact different (Prod.ext sameTime sameIndex)
  · exact videoFormat_lt_iff firstValid secondValid natural otherNatural
  · exact (isVideo_iff found).mpr (Or.inl (by rw [extension]; decide))
  · exact (isMp4_iff found).mpr extension

def newYearsEve : DateTimeStruct where
  tm_year := 2025
  tm_mon := 12
  tm_mday := 31
  tm_hour := 23
  tm_min := 59
  tm_sec := 59

def newYear : DateTimeStruct where
  tm_year := 2026
  tm_mon := 1
  tm_mday := 1
  tm_hour := 0
  tm_min := 0
  tm_sec := 0

/-- The last recording of a year comes before the first of the next. -/
theorem newYear_later :
    (generateMediaPath newYearsEve 64 128 7).videoPath =
        "/userdata/ums/video/20251231/20251231_235959_007.mp4".toList ∧
      (generateMediaPath newYearsEve 64 128 7).videoPath <
        (generateMediaPath newYear 64 128 0).videoPath := by
  have eveValid : newYearsEve.Valid := by constructor <;> decide
  have yearValid : newYear.Valid := by constructor <;> decide
  have eveLarge : LargeEnough 64 128 newYearsEve 7 := by constructor <;> decide
  have yearLarge : LargeEnough 64 128 newYear 0 := by constructor <;> decide
  refine ⟨by decide, ?_⟩
  exact ((media_paths eveValid yearValid (by decide) (by decide) eveLarge yearLarge).2.1
    (by decide) (by decide)).mpr (by decide)

end BuildLinux.Concrete.MediaNames
