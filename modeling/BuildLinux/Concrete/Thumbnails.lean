/-
The thumbnails of a date directory in package/lvgl/m_file.c.

The type of a file is read off its path, which is cut at 255 characters before.
A video's thumbnail is named by the last component of the directory and by the
name without its extension, in an array of the same size.
-/

import BuildLinux.Concrete.FileBrowser
import BuildLinux.Concrete.LvglPaths

namespace BuildLinux.Concrete.Thumbnails

open CStrings
open FileBrowser (umsPath isDateFolder)
open LvglPaths (makeLvglPath)

/-- The file types that `show_thumbnails` tells apart. -/
inductive FileType where
  | DT_REG
  | other
  deriving DecidableEq, Repr

structure Dirent where
  d_name : CString
  d_type : FileType
  deriving DecidableEq, Repr

/-! ### is_image and is_video -/

def strcasecmp (left right : CString) : Bool :=
  left.map Char.toLower == right.map Char.toLower

def hasExtension (extensions : List CString) (filename : CString) : Bool :=
  match strrchr '.' filename with
  | none => false
  | some dot => extensions.any (strcasecmp (filename.drop dot))

def imageExtensions : List CString := [".jpg".toList, ".png".toList, ".bmp".toList]

def videoExtensions : List CString := [".mp4".toList, ".avi".toList, ".mov".toList]

def isImage (filename : CString) : Bool := hasExtension imageExtensions filename

def isVideo (filename : CString) : Bool := hasExtension videoExtensions filename

/-! ### show_thumbnails -/

/-- The user data of a button, and whether it has the icon of a video. -/
structure ThumbButton where
  thumb_path : CString
  video_path : CString
  play_icon : Bool
  deriving DecidableEq, Repr

/-- `strrchr(dir_path, '/') + 1`; without a slash a null pointer is formatted. -/
def dateFolder (dir_path : CString) : CString :=
  match strrchr '/' dir_path with
  | some last => dir_path.drop (last + 1)
  | none => "(null)".toList

/-- `*dot = '\0'` at the last dot. -/
def cutExtension (path : CString) : CString :=
  match strrchr '.' path with
  | some dot => path.take dot
  | none => path

def thumbPrefix : CString := "/userdata/ums/thumb/".toList

/-- The thumbnail's path in an array of 256 characters. -/
def thumbPath (dir_path d_name : CString) : CString :=
  let stem := cutExtension (bounded 256 (thumbPrefix ++ dateFolder dir_path ++ '/' :: d_name))
  stem ++ ".png".toList.take (256 - stem.length - 1)

def fullPath (dir_path d_name : CString) : CString := bounded 256 (dir_path ++ '/' :: d_name)

def thumbButton (dir_path : CString) (entry : Dirent) : Option ThumbButton :=
  if entry.d_name.head? = some '.' then none
  else if entry.d_type ≠ .DT_REG then none
  else
    let full_path := fullPath dir_path entry.d_name
    if isImage full_path then
      some
        { thumb_path := makeLvglPath full_path 256
          video_path := full_path
          play_icon := isVideo full_path }
    else if isVideo full_path then
      some
        { thumb_path := makeLvglPath (thumbPath dir_path entry.d_name) 256
          video_path := full_path
          play_icon := true }
    else none

/-- The buttons that `show_thumbnails` creates behind Back. -/
def showThumbnails (dir_path : CString) (entries : List Dirent) : List ThumbButton :=
  entries.filterMap (thumbButton dir_path)

/-! ### Faithful listings -/

structure DateDirectory where
  path : CString
  entries : List Dirent

/-- A directory somewhere under the start path that is named by a date. -/
def DateDirectory.WellFormed (directory : DateDirectory) : Prop :=
  ∃ parent date, directory.path = parent ++ '/' :: date ∧ Under umsPath parent ∧
    isDateFolder date = true

def isListed (entry : Dirent) : Bool :=
  entry.d_name.head? != some '.' && entry.d_type == .DT_REG

/-- A regular file, not hidden, whose own name is that of an image or a video. -/
def accepted (entry : Dirent) : Bool :=
  isListed entry && (isImage entry.d_name || isVideo entry.d_name)

def isVideoFile (entry : Dirent) : Bool := isListed entry && isVideo entry.d_name

/-- One button for every accepted file, with its path, and no other. -/
def Exact (directory : DateDirectory) : Prop :=
  (showThumbnails directory.path directory.entries).map ThumbButton.video_path =
    (directory.entries.filter accepted).map fun entry => directory.path ++ '/' :: entry.d_name

/-- A property of every two different video files of the directories. -/
def ForVideoPairs (directories : List DateDirectory)
    (holds : CString → Dirent → CString → Dirent → Prop) : Prop :=
  ∀ left ∈ directories, ∀ right ∈ directories, ∀ first ∈ left.entries, ∀ second ∈ right.entries,
    isVideoFile first = true → isVideoFile second = true →
    (left.path, first.d_name) ≠ (right.path, second.d_name) →
    holds left.path first right.path second

/-- Different video files have different thumbnails. -/
def Separate (directories : List DateDirectory) : Prop :=
  ForVideoPairs directories fun leftPath first rightPath second =>
    ∀ left right, thumbButton leftPath first = some left →
      thumbButton rightPath second = some right → left.thumb_path ≠ right.thumb_path

def Faithful (directories : List DateDirectory) : Prop :=
  (∀ directory ∈ directories, Exact directory) ∧ Separate directories

/-- Every listed file has a path of at most 255 characters, or neither its name
nor the cut path is that of an image or a video. -/
def FitOrIgnored (directory : DateDirectory) : Prop :=
  ∀ entry ∈ directory.entries, isListed entry = true →
    directory.path.length + 1 + entry.d_name.length < 256 ∨
      (isImage entry.d_name || isVideo entry.d_name) = false ∧
        (isImage (fullPath directory.path entry.d_name) ||
          isVideo (fullPath directory.path entry.d_name)) = false

/-- Different video files differ in the date or before the last dot within the
first 226 characters of their names. -/
def StemsApart (directories : List DateDirectory) : Prop :=
  ForVideoPairs directories fun leftPath first rightPath second =>
    dateFolder leftPath ≠ dateFolder rightPath ∨
      cutExtension (first.d_name.take 226) ≠ cutExtension (second.d_name.take 226)

/-! ### The type of a file -/

/-- The extension of a path is that of its last component, if that has one, and
no extension at all otherwise. -/
theorem hasExtension_child {extensions : List CString}
    (plain : ∀ extension ∈ extensions, '/' ∉ extension.map Char.toLower)
    (dir_path d_name : CString) :
    hasExtension extensions (dir_path ++ '/' :: d_name) = hasExtension extensions d_name := by
  have split : dir_path ++ '/' :: d_name = (dir_path ++ ['/']) ++ d_name := by simp
  unfold hasExtension
  rw [split, strrchr_concat]
  cases inName : strrchr '.' d_name with
  | some dot =>
      have behind : (dir_path ++ ['/'] ++ d_name).drop ((dir_path ++ ['/']).length + dot) =
          d_name.drop dot := by
        rw [← List.drop_drop, List.drop_left]
      dsimp only
      rw [behind]
  | none =>
      cases inPath : strrchr '.' (dir_path ++ ['/']) with
      | none => rfl
      | some dot =>
          dsimp only
          apply List.any_eq_false.mpr
          intro extension member isExtension
          have same := beq_iff_eq.mp isExtension
          apply plain extension member
          rw [← same]
          -- The last dot stands before the slash, which is part of the extension then.
          have early := strrchr_lt inPath
          have slash : '/' ∈ (dir_path ++ ['/'] ++ d_name).drop dot := by
            have notLast : dot ≠ dir_path.length := by
              intro isLast
              have found := strrchr_found inPath
              rw [isLast, List.getElem?_concat_length] at found
              cases found
            rw [List.length_append, List.length_singleton] at early
            rw [List.append_assoc, List.drop_append_of_le_length (by omega)]
            simp
          exact List.mem_map.mpr ⟨'/', slash, rfl⟩

theorem isImage_child (dir_path d_name : CString) :
    isImage (dir_path ++ '/' :: d_name) = isImage d_name :=
  hasExtension_child (by decide) dir_path d_name

theorem isVideo_child (dir_path d_name : CString) :
    isVideo (dir_path ++ '/' :: d_name) = isVideo d_name :=
  hasExtension_child (by decide) dir_path d_name

theorem types_disjoint : ∀ video ∈ videoExtensions, ∀ image ∈ imageExtensions,
    video.map Char.toLower ≠ image.map Char.toLower := by
  decide

theorem video_not_image {filename : CString} (video : isVideo filename = true) :
    isImage filename = false := by
  unfold isVideo hasExtension at video
  unfold isImage hasExtension
  cases found : strrchr '.' filename with
  | none => rfl
  | some dot =>
      rw [found] at video
      obtain ⟨extension, member, isExtension⟩ := List.any_eq_true.mp video
      have lower := beq_iff_eq.mp isExtension
      apply List.any_eq_false.mpr
      intro other otherMember isOther
      exact types_disjoint extension member other otherMember
        (lower.symm.trans (beq_iff_eq.mp isOther))

/-! ### The buttons -/

theorem fullPath_fits {dir_path d_name : CString}
    (fits : dir_path.length + 1 + d_name.length < 256) :
    fullPath dir_path d_name = dir_path ++ '/' :: d_name := by
  apply bounded_short
  rw [List.length_append, List.length_cons]
  omega

theorem thumbButton_video_path {dir_path : CString} {entry : Dirent} {button : ThumbButton}
    (made : thumbButton dir_path entry = some button) :
    button.video_path = fullPath dir_path entry.d_name := by
  unfold thumbButton at made
  obtain ⟨_, made⟩ := Option.ite_none_left_eq_some.mp made
  obtain ⟨_, made⟩ := Option.ite_none_left_eq_some.mp made
  dsimp only at made
  split at made
  · cases made
    rfl
  · obtain ⟨_, made⟩ := Option.ite_none_right_eq_some.mp made
    cases made
    rfl

/-- The files with a button are told by the cut path. -/
theorem thumbButton_isSome (dir_path : CString) (entry : Dirent) :
    (thumbButton dir_path entry).isSome =
      (isListed entry && (isImage (fullPath dir_path entry.d_name) ||
        isVideo (fullPath dir_path entry.d_name))) := by
  unfold thumbButton isListed
  by_cases hidden : entry.d_name.head? = some '.'
  · simp [hidden]
  · by_cases regular : entry.d_type = .DT_REG
    · cases image : isImage (fullPath dir_path entry.d_name) with
      | true => simp [hidden, regular, image]
      | false =>
          cases video : isVideo (fullPath dir_path entry.d_name) with
          | true => simp [hidden, regular, image, video]
          | false => simp [hidden, regular, image, video]
    · simp [hidden, regular]

theorem isSome_fits {dir_path : CString} {entry : Dirent}
    (fits : dir_path.length + 1 + entry.d_name.length < 256) :
    (thumbButton dir_path entry).isSome = accepted entry := by
  rw [thumbButton_isSome, fullPath_fits fits, isImage_child, isVideo_child]
  rfl

theorem thumbButton_video {dir_path : CString} {entry : Dirent}
    (fits : dir_path.length + 1 + entry.d_name.length < 256) (video : isVideoFile entry = true) :
    thumbButton dir_path entry =
      some
        { thumb_path := makeLvglPath (thumbPath dir_path entry.d_name) 256
          video_path := dir_path ++ '/' :: entry.d_name
          play_icon := true } := by
  obtain ⟨listed, isVideoName⟩ := (Bool.and_eq_true _ _).mp video
  obtain ⟨shown, regular⟩ := (Bool.and_eq_true _ _).mp listed
  unfold thumbButton
  rw [if_neg (bne_iff_ne.mp shown), if_neg (not_not_intro (beq_iff_eq.mp regular))]
  dsimp only
  rw [fullPath_fits fits, isImage_child, isVideo_child, video_not_image isVideoName, isVideoName]
  rfl

/-! ### One button for each file -/

section Results

variable {element result : Type} {value : element → Option result} {chosen : element → Bool}

/-- As many results as chosen elements, with one for each of these, are no
results for the others. -/
theorem unchosen_none {elements : List element}
    (covered : ∀ item ∈ elements, chosen item = true → (value item).isSome = true)
    (same : (elements.filterMap value).length = (elements.filter chosen).length) :
    ∀ item ∈ elements, chosen item = false → value item = none := by
  rw [List.length_filterMap_eq_countP, ← List.countP_eq_length_filter] at same
  induction elements with
  | nil => nofun
  | cons first rest ih =>
      have fewer := List.countP_mono_left fun item member =>
        covered item (List.mem_cons_of_mem first member)
      have coveredFirst := covered first List.mem_cons_self
      rw [List.countP_cons, List.countP_cons] at same
      intro item member unchosen
      cases isChosen : chosen first with
      | true =>
          rw [if_pos (coveredFirst isChosen), if_pos isChosen] at same
          rcases List.mem_cons.mp member with rfl | later
          · rw [isChosen] at unchosen
            cases unchosen
          · exact ih (fun item member => covered item (List.mem_cons_of_mem first member))
              (Nat.succ.inj same) item later unchosen
      | false =>
          cases isResult : value first with
          | some made =>
              rw [isResult, isChosen] at same
              simp only [Option.isSome_some, if_true, Bool.false_eq_true, if_false] at same
              omega
          | none =>
              rw [isResult, isChosen] at same
              rcases List.mem_cons.mp member with rfl | later
              · exact isResult
              · exact ih (fun item member => covered item (List.mem_cons_of_mem first member))
                  same item later unchosen

theorem filterMap_chosen {view : Type} {read : result → view} {expected : element → view}
    {elements : List element}
    (made : ∀ item ∈ elements, chosen item = true → (value item).map read = some (expected item))
    (others : ∀ item ∈ elements, chosen item = false → value item = none) :
    (elements.filterMap value).map read = (elements.filter chosen).map expected := by
  induction elements with
  | nil => rfl
  | cons first rest ih =>
      have tail := ih (fun item member => made item (List.mem_cons_of_mem first member))
        (fun item member => others item (List.mem_cons_of_mem first member))
      cases isChosen : chosen first with
      | true =>
          obtain ⟨button, isResult, shown⟩ :=
            Option.map_eq_some_iff.mp (made first List.mem_cons_self isChosen)
          rw [List.filterMap_cons_some isResult, List.filter_cons_of_pos isChosen, List.map_cons,
            List.map_cons, shown, tail]
      | false =>
          rw [List.filterMap_cons_none (others first List.mem_cons_self isChosen),
            List.filter_cons_of_neg (Bool.not_eq_true _ ▸ isChosen), tail]

end Results

theorem exact_of_fit {directory : DateDirectory} (fit : FitOrIgnored directory) :
    Exact directory := by
  apply filterMap_chosen
  · intro entry member isAccepted
    obtain ⟨listed, named⟩ := (Bool.and_eq_true _ _).mp isAccepted
    rcases fit entry member listed with fits | ⟨unnamed, _⟩
    · obtain ⟨button, made⟩ := Option.isSome_iff_exists.mp ((isSome_fits fits).trans isAccepted)
      rw [made, ← fullPath_fits fits]
      exact congrArg some (thumbButton_video_path made)
    · rw [named] at unnamed
      cases unnamed
  · intro entry member notAccepted
    apply Option.isNone_iff_eq_none.mp
    rw [← Option.not_isSome]
    cases listed : isListed entry with
    | false => simp [thumbButton_isSome, listed]
    | true =>
        rcases fit entry member listed with fits | ⟨_, untyped⟩
        · simp [isSome_fits fits, notAccepted]
        · simp only [thumbButton_isSome, untyped, Bool.and_false, Bool.not_false]

/-- No path in the array is longer, so that an accepted file's path fits. -/
theorem accepted_fits {directory : DateDirectory} (exact : Exact directory) {entry : Dirent}
    (member : entry ∈ directory.entries) (isAccepted : accepted entry = true) :
    directory.path.length + 1 + entry.d_name.length < 256 := by
  have shown : directory.path ++ '/' :: entry.d_name ∈
      (showThumbnails directory.path directory.entries).map ThumbButton.video_path := by
    rw [exact]
    exact List.mem_map_of_mem (List.mem_filter.mpr ⟨member, isAccepted⟩)
  obtain ⟨button, made, path⟩ := List.mem_map.mp shown
  obtain ⟨source, _, made⟩ := List.mem_filterMap.mp made
  have short := bounded_length 256 (directory.path ++ '/' :: source.d_name)
  change (fullPath directory.path source.d_name).length ≤ 255 at short
  rw [← thumbButton_video_path made, path, List.length_append, List.length_cons] at short
  omega

theorem video_fits {directory : DateDirectory} (fit : FitOrIgnored directory) {entry : Dirent}
    (member : entry ∈ directory.entries) (video : isVideoFile entry = true) :
    directory.path.length + 1 + entry.d_name.length < 256 := by
  obtain ⟨listed, named⟩ := (Bool.and_eq_true _ _).mp video
  rcases fit entry member listed with fits | ⟨unnamed, _⟩
  · exact fits
  · rw [named, Bool.or_true] at unnamed
    cases unnamed

theorem fit_of_exact {directory : DateDirectory} (exact : Exact directory) :
    FitOrIgnored directory := by
  intro entry member listed
  cases isAccepted : accepted entry with
  | true => exact Or.inl (accepted_fits exact member isAccepted)
  | false =>
      have lengths := congrArg List.length exact
      rw [List.length_map, List.length_map] at lengths
      have missing := unchosen_none (fun entry member isAccepted =>
        (isSome_fits (accepted_fits exact member isAccepted)).trans isAccepted) lengths
        entry member isAccepted
      have untyped := thumbButton_isSome directory.path entry
      rw [missing, listed, Bool.true_and] at untyped
      unfold accepted at isAccepted
      rw [listed, Bool.true_and] at isAccepted
      exact Or.inr ⟨isAccepted, untyped.symm⟩

/-! ### Thumbnail paths -/

theorem dateFolder_eq {parent date : CString} (isDate : isDateFolder date = true) :
    dateFolder (parent ++ '/' :: date) = date := by
  have digits := ((Bool.and_eq_true _ _).mp isDate).2
  have plain : '/' ∉ date := by
    intro member
    have digit := List.all_eq_true.mp digits '/' member
    revert digit
    decide
  unfold dateFolder
  rw [strrchr_append plain]
  change (parent ++ '/' :: date).drop (parent.length + 1) = date
  rw [← List.drop_drop, List.drop_left]
  rfl

theorem dateFolder_date {directory : DateDirectory} (wellFormed : directory.WellFormed) :
    isDateFolder (dateFolder directory.path) = true := by
  obtain ⟨parent, date, path, _, isDate⟩ := wellFormed
  rw [path, dateFolder_eq isDate]
  exact isDate

/-- The part of a thumbnail's path that is its video's own. -/
def stem (d_name : CString) : CString := cutExtension (d_name.take 226)

def pngName (d_name : CString) : CString :=
  stem d_name ++ ".png".toList.take (226 - (stem d_name).length)

theorem cutExtension_concat {front : CString} (plain : '.' ∉ front) (rest : CString) :
    cutExtension (front ++ rest) = front ++ cutExtension rest := by
  unfold cutExtension
  rw [strrchr_concat, strrchr_absent plain]
  cases strrchr '.' rest with
  | none => rfl
  | some dot => exact List.take_length_add_append dot

/-- An extension is cut off, or there is none and nothing is cut off. -/
theorem stem_full {d_name : CString} (full : 226 ≤ (stem d_name).length) : '.' ∉ stem d_name := by
  have short := List.length_take_le 226 d_name
  unfold stem cutExtension at full ⊢
  cases found : strrchr '.' (d_name.take 226) with
  | none => exact strrchr_none_absent found
  | some dot =>
      rw [found] at full
      have early := strrchr_lt found
      have cut := List.length_take_le dot (d_name.take 226)
      dsimp only at full
      omega

theorem stem_length (d_name : CString) : (stem d_name).length ≤ 226 := by
  have short := List.length_take_le 226 d_name
  unfold stem cutExtension
  cases strrchr '.' (d_name.take 226) with
  | none => exact short
  | some dot => exact Nat.le_trans (List.length_take_le' dot _) short

/-- The stem is all that stands before the last dot, also behind the renaming. -/
theorem cutExtension_pngName (d_name : CString) : cutExtension (pngName d_name) = stem d_name := by
  have short := stem_length d_name
  unfold pngName
  rcases Nat.eq_or_lt_of_le short with isFull | room
  · rw [isFull, Nat.sub_self, List.take_zero, List.append_nil]
    unfold cutExtension
    rw [strrchr_absent (stem_full (Nat.le_of_eq isFull.symm))]
  · obtain ⟨more, isMore⟩ := Nat.exists_eq_add_of_lt room
    have rest : 226 - (stem d_name).length = more + 1 := by omega
    have plain : '.' ∉ "png".toList.take more := fun member =>
      absurd (List.mem_of_mem_take member) (by decide)
    rw [rest]
    change cutExtension (stem d_name ++ '.' :: "png".toList.take more) = stem d_name
    unfold cutExtension
    rw [strrchr_append plain]
    exact List.take_left

theorem pngName_injective {left right : CString} :
    pngName left = pngName right ↔ stem left = stem right := by
  constructor
  · intro same
    rw [← cutExtension_pngName, same, cutExtension_pngName]
  · intro same
    unfold pngName
    rw [same]

theorem thumbPath_eq {dir_path : CString} (isDate : isDateFolder (dateFolder dir_path) = true)
    (d_name : CString) :
    thumbPath dir_path d_name = thumbPrefix ++ dateFolder dir_path ++ '/' :: pngName d_name := by
  obtain ⟨eight, digits⟩ := (Bool.and_eq_true _ _).mp isDate
  have front : (thumbPrefix ++ dateFolder dir_path ++ ['/']).length = 29 := by
    rw [List.length_append, List.length_append, beq_iff_eq.mp eight]
    rfl
  have plain : '.' ∉ thumbPrefix ++ dateFolder dir_path ++ ['/'] := by
    intro member
    rcases List.mem_append.mp member with before | isSlash
    · rcases List.mem_append.mp before with isPrefix | inDate
      · exact absurd isPrefix (by decide)
      · have digit := List.all_eq_true.mp digits '.' inDate
        revert digit
        decide
    · exact absurd isSlash (by decide)
  have split (rest : CString) : thumbPrefix ++ dateFolder dir_path ++ '/' :: rest =
      thumbPrefix ++ dateFolder dir_path ++ ['/'] ++ rest := by
    rw [List.append_assoc _ ['/'] rest]
    rfl
  have cut : cutExtension (bounded 256 (thumbPrefix ++ dateFolder dir_path ++ '/' :: d_name)) =
      thumbPrefix ++ dateFolder dir_path ++ ['/'] ++ stem d_name := by
    unfold bounded
    rw [split, List.take_append, List.take_of_length_le (by omega), front,
      cutExtension_concat plain]
    rfl
  have room : 256 - (29 + (stem d_name).length) - 1 = 226 - (stem d_name).length := by omega
  unfold thumbPath
  dsimp only
  rw [cut, List.length_append, front, room, split (pngName d_name), List.append_assoc]
  rfl

theorem lvglPath_eq {dir_path : CString} (isDate : isDateFolder (dateFolder dir_path) = true)
    (d_name : CString) :
    makeLvglPath (thumbPath dir_path d_name) 256 =
      "U:/thumb/".toList ++ (dateFolder dir_path ++ '/' :: pngName d_name) := by
  have eight := beq_iff_eq.mp ((Bool.and_eq_true _ _).mp isDate).1
  have short : (pngName d_name).length ≤ 230 := by
    have stemShort := stem_length d_name
    have pngShort := List.length_take_le' (226 - (stem d_name).length) ".png".toList
    unfold pngName
    rw [List.length_append]
    change _ ≤ 4 at pngShort
    omega
  have inside : thumbPath dir_path d_name = LvglPaths.umsPrefix ++
      '/' :: ("thumb/".toList ++ (dateFolder dir_path ++ '/' :: pngName d_name)) := by
    rw [thumbPath_eq isDate, List.append_assoc]
    rfl
  rw [inside, LvglPaths.makeLvglPath_ums]
  · rfl
  · rw [List.length_append, List.length_append, List.length_cons, eight]
    change 6 + _ < 253
    omega

theorem lvglPath_injective {leftPath rightPath : CString} (left right : CString)
    (leftDate : isDateFolder (dateFolder leftPath) = true)
    (rightDate : isDateFolder (dateFolder rightPath) = true) :
    makeLvglPath (thumbPath leftPath left) 256 = makeLvglPath (thumbPath rightPath right) 256 ↔
      dateFolder leftPath = dateFolder rightPath ∧ stem left = stem right := by
  have leftEight := beq_iff_eq.mp ((Bool.and_eq_true _ _).mp leftDate).1
  have rightEight := beq_iff_eq.mp ((Bool.and_eq_true _ _).mp rightDate).1
  rw [lvglPath_eq leftDate, lvglPath_eq rightDate, List.append_cancel_left_eq,
    ← pngName_injective]
  constructor
  · intro same
    obtain ⟨dates, names⟩ := List.append_inj same (leftEight.trans rightEight.symm)
    exact ⟨dates, (List.cons.inj names).2⟩
  · rintro ⟨dates, names⟩
    rw [dates, names]

theorem thumbs_differ_iff {left right : DateDirectory} {first second : Dirent}
    (leftDate : left.WellFormed) (rightDate : right.WellFormed)
    (leftFit : FitOrIgnored left) (rightFit : FitOrIgnored right)
    (firstMember : first ∈ left.entries) (secondMember : second ∈ right.entries)
    (firstVideo : isVideoFile first = true) (secondVideo : isVideoFile second = true) :
    (∀ leftButton rightButton, thumbButton left.path first = some leftButton →
        thumbButton right.path second = some rightButton →
        leftButton.thumb_path ≠ rightButton.thumb_path) ↔
      dateFolder left.path ≠ dateFolder right.path ∨
        cutExtension (first.d_name.take 226) ≠ cutExtension (second.d_name.take 226) := by
  rw [thumbButton_video (video_fits leftFit firstMember firstVideo) firstVideo,
    thumbButton_video (video_fits rightFit secondMember secondVideo) secondVideo]
  have same := lvglPath_injective first.d_name second.d_name (dateFolder_date leftDate)
    (dateFolder_date rightDate)
  rw [← not_and_or]
  constructor
  · intro differ equal
    exact differ _ _ rfl rfl (same.mpr equal)
  · rintro differ _ _ ⟨⟩ ⟨⟩ equal
    exact differ (same.mp equal)

/-- The listing is faithful exactly when every path of an image or a video fits
into the array and different videos differ in what the thumbnails are named by. -/
theorem thumbnails_faithful_iff {directories : List DateDirectory}
    (wellFormed : ∀ directory ∈ directories, directory.WellFormed) :
    Faithful directories ↔
      (∀ directory ∈ directories, FitOrIgnored directory) ∧ StemsApart directories := by
  constructor
  · rintro ⟨exact, separate⟩
    have fit : ∀ directory ∈ directories, FitOrIgnored directory :=
      fun directory member => fit_of_exact (exact directory member)
    refine ⟨fit, ?_⟩
    intro left inLeft right inRight first firstMember second secondMember
      firstVideo secondVideo different
    rw [← thumbs_differ_iff (wellFormed left inLeft) (wellFormed right inRight) (fit left inLeft)
      (fit right inRight) firstMember secondMember firstVideo secondVideo]
    exact separate left inLeft right inRight first firstMember second secondMember
      firstVideo secondVideo different
  · rintro ⟨fit, apart⟩
    refine ⟨fun directory member => exact_of_fit (fit directory member), ?_⟩
    intro left inLeft right inRight first firstMember second secondMember
      firstVideo secondVideo different
    rw [thumbs_differ_iff (wellFormed left inLeft) (wellFormed right inRight) (fit left inLeft)
      (fit right inRight) firstMember secondMember firstVideo secondVideo]
    exact apart left inLeft right inRight first firstMember second secondMember
      firstVideo secondVideo different

/-- The directory of a date in the start path that holds these regular files. -/
def dateDirectory (date : CString) (names : List CString) : DateDirectory where
  path := umsPath ++ '/' :: date
  entries := names.map fun name => { d_name := name, d_type := .DT_REG }

theorem dateDirectory_wellFormed {date : CString} (isDate : isDateFolder date = true)
    (names : List CString) : (dateDirectory date names).WellFormed :=
  ⟨umsPath, date, rfl, Or.inl rfl, isDate⟩

def twoDays : List DateDirectory :=
  [dateDirectory "20250101".toList ["a.mp4".toList, "a.b.MP4".toList, "c.jpg".toList],
    dateDirectory "20250102".toList ["a.mp4".toList, ".b.avi".toList, "notes".toList]]

theorem two_days_faithful : Faithful twoDays := by
  have wellFormed : ∀ directory ∈ twoDays, directory.WellFormed := by
    intro directory member
    rcases List.mem_cons.mp member with rfl | member
    · exact dateDirectory_wellFormed (by decide) _
    · rw [List.mem_singleton.mp member]
      exact dateDirectory_wellFormed (by decide) _
  rw [thumbnails_faithful_iff wellFormed]
  unfold FitOrIgnored StemsApart ForVideoPairs
  decide

/-- Two recordings of one day whose names differ in the extension only. -/
theorem extension_lost :
    ¬∀ directories : List DateDirectory,
      (∀ directory ∈ directories, directory.WellFormed) → Faithful directories := by
  intro faithful
  have wellFormed := dateDirectory_wellFormed (by decide : isDateFolder "20250101".toList = true)
    ["a.mp4".toList, "a.avi".toList]
  obtain ⟨_, separate⟩ := faithful [_] fun directory member =>
    List.mem_singleton.mp member ▸ wellFormed
  have differ := separate _ List.mem_cons_self _ List.mem_cons_self _ List.mem_cons_self _
    (List.mem_cons_of_mem _ List.mem_cons_self) (by decide) (by decide) (by decide)
  exact differ _ _ rfl rfl (by decide)

end BuildLinux.Concrete.Thumbnails
