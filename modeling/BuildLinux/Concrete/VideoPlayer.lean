/-
The objects of the video player of package/ffmpeg/video_save.c.

Every call of `lv_example_open_video` has a number, and a resource is named by
the number of the call that acquires it and by its kind.  The canvas and its
buffer are globals that each open overwrites.  Acquiring calls may fail, frames
and slider events may come in any order.
-/

import BuildLinux.CStrings
import BuildLinux.ResourceLedger
import BuildLinux.TransitionSystem

namespace BuildLinux.Concrete.VideoPlayer

open CStrings ResourceLedger TransitionSystem

inductive Kind where
  | contextStruct
  | formatContext
  | codecContext
  | frame
  | frameRGB
  | rgbBuffer
  | swsContext
  | canvasBuf
  | canvas
  | slider
  | timer
  deriving DecidableEq, Repr

abbrev Resource := Nat × Kind

abbrev Ledger := List (Operation Resource)

inductive Status where
  | rejected
  | failed
  | playing
  | ended
  deriving DecidableEq, Repr

/-- One call of the open; `acquired` are the kinds its ledger acquires, which
are the pointers that are not NULL. -/
structure Video where
  status : Status
  acquired : List Kind
  seeking : Bool
  deriving DecidableEq, Repr

/-- The globals `canvas` and `canvas_buf` by the call that set them. -/
structure Player where
  canvas : Option Nat
  canvas_buf : Option Nat
  videos : List Video
  ledger : Ledger
  deriving DecidableEq, Repr

/-! ### lv_example_open_video -/

/-- The path of an open, which acquiring calls succeed, and what the other
calls find. -/
structure Attempt where
  full_path : Option CString
  succeeds : Kind → Bool
  findStreamInfo : Bool
  hasVideoStream : Bool
  findDecoder : Bool

def isMp4 (full_path : Option CString) : Bool :=
  match full_path with
  | none => false
  | some path =>
      match strrchr '.' path with
      | none => false
      | some last => path.drop last == ".mp4".toList

def Attempt.acquire (attempt : Attempt) (video : Nat) (kind : Kind) : Ledger :=
  if attempt.succeeds kind then [.acquire (video, kind)] else []

/-- `video_canvas_init`. -/
def videoCanvasInit (attempt : Attempt) (video : Nat) : Ledger :=
  attempt.acquire video .canvasBuf ++ attempt.acquire video .canvas ++
    [.use (video, .canvas), .use (video, .canvasBuf)]

/-- The calls behind the last check, whose results are not looked at. -/
def openUnchecked (attempt : Attempt) (video : Nat) : Ledger :=
  attempt.acquire video .frame ++ attempt.acquire video .frameRGB ++
    attempt.acquire video .rgbBuffer ++ attempt.acquire video .swsContext ++
    videoCanvasInit attempt video ++ attempt.acquire video .slider ++
    [.use (video, .slider), .use (video, .canvas)] ++ attempt.acquire video .timer

def lvExampleOpenVideo (attempt : Attempt) (video : Nat) : Status × Ledger :=
  if !isMp4 attempt.full_path then (.rejected, [])
  else
    let allocated : Ledger := [.acquire (video, .contextStruct), .use (video, .contextStruct)]
    if !attempt.succeeds .formatContext then (.failed, allocated)
    else
      let opened : Ledger :=
        allocated ++ [.acquire (video, .formatContext), .use (video, .formatContext)]
      if !attempt.findStreamInfo then (.failed, opened)
      else if !attempt.hasVideoStream then (.failed, opened)
      else if !attempt.findDecoder then (.failed, opened)
      else if !attempt.succeeds .codecContext then (.failed, opened)
      else
        (.playing, opened ++ [.acquire (video, .codecContext)] ++ openUnchecked attempt video)

def acquiredKind : Operation Resource → Option Kind
  | .acquire item => some item.2
  | _ => none

def Attempt.pointer (attempt : Attempt) (video : Nat) (kind : Kind) : Option Nat :=
  if attempt.succeeds kind then some video else none

def newVideo (status : Status) (operations : Ledger) : Video where
  status := status
  acquired := operations.filterMap acquiredKind
  seeking := false

/-- None where `calloc` fails: the call then writes through the null pointer. -/
def addCall (player : Player) (attempt : Attempt) : Status → Ledger → Option Player
  | .rejected, operations =>
      some { player with videos := player.videos ++ [newVideo .rejected operations] }
  | .playing, operations =>
      if attempt.succeeds .contextStruct then
        some
          { canvas := attempt.pointer player.videos.length .canvas
            canvas_buf := attempt.pointer player.videos.length .canvasBuf
            videos := player.videos ++ [newVideo .playing operations]
            ledger := player.ledger ++ operations }
      else none
  | status, operations =>
      if attempt.succeeds .contextStruct then
        some
          { player with
            videos := player.videos ++ [newVideo status operations]
            ledger := player.ledger ++ operations }
      else none

def openVideo (player : Player) (attempt : Attempt) : Option Player :=
  addCall player attempt (lvExampleOpenVideo attempt player.videos.length).1
    (lvExampleOpenVideo attempt player.videos.length).2

/-! ### Frames -/

/-- What `av_read_frame` and the decoder give. -/
inductive ReadOutcome where
  | endOfStream
  | otherStream
  | videoPacket (frameFinished : Bool)
  deriving DecidableEq, Repr

def useGlobal (pointer : Option Nat) (kind : Kind) : Ledger :=
  match pointer with
  | some owner => [.use (owner, kind)]
  | none => []

/-- `video_canvas_show_frame`, from the converted picture of a video. -/
def videoCanvasShowFrame (player : Player) (video : Nat) : Ledger :=
  [.use (video, .frameRGB), .use (video, .rgbBuffer)] ++
    useGlobal player.canvas_buf .canvasBuf ++ useGlobal player.canvas .canvas

def decodeFrame (video : Nat) : Ledger :=
  [.use (video, .codecContext), .use (video, .frame)]

def showFrame (player : Player) (video : Nat) : Ledger :=
  [.use (video, .swsContext), .use (video, .frame), .use (video, .codecContext)] ++
    videoCanvasShowFrame player video ++ [.use (video, .formatContext)]

def freed (number : Nat) (video : Video) (kind : Kind) : Ledger :=
  if kind ∈ video.acquired then [.release (number, kind)] else []

def freedGlobal (pointer : Option Nat) (kind : Kind) : Ledger :=
  match pointer with
  | some owner => [.release (owner, kind)]
  | none => []

/-- The branch of `video_timer_cb` at the end of the stream. -/
def endOfStream (player : Player) (number : Nat) (video : Video) : Ledger :=
  freed number video .timer ++ freed number video .slider ++
    freedGlobal player.canvas .canvas ++ freed number video .rgbBuffer ++
    freed number video .frameRGB ++ freed number video .frame ++
    freed number video .codecContext ++ freed number video .formatContext ++
    freed number video .contextStruct ++ freedGlobal player.canvas_buf .canvasBuf

def Player.record (player : Player) (operations : Ledger) : Player :=
  { player with ledger := player.ledger ++ operations }

def Player.finish (player : Player) (number : Nat) (video : Video) : Player :=
  { player with
    canvas := none
    videos := player.videos.set number { video with status := .ended }
    ledger := player.ledger ++
      ([.use (number, .contextStruct), .use (number, .formatContext)] ++
        endOfStream player number video) }

def videoTimerCb (player : Player) (number : Nat) (video : Video) (outcome : ReadOutcome) :
    Player :=
  if video.seeking then player.record [.use (number, .contextStruct)]
  else
    let read : Ledger := [.use (number, .contextStruct), .use (number, .formatContext)]
    match outcome with
    | .endOfStream => player.finish number video
    | .otherStream => player.record read
    | .videoPacket false => player.record (read ++ decodeFrame number)
    | .videoPacket true =>
        player.record
          (read ++ decodeFrame number ++ showFrame player number ++
            if .slider ∈ video.acquired then [.use (number, .slider)] else [])

/-! ### The slider -/

inductive SliderEvent where
  | pressed
  | valueChanged (reads : List ReadOutcome)
  | released
  deriving DecidableEq, Repr

/-- The loop that looks for one frame behind the new position. -/
def seekLoop (player : Player) (number : Nat) : List ReadOutcome → Ledger
  | [] => [.use (number, .formatContext)]
  | .endOfStream :: _ => [.use (number, .formatContext)]
  | .otherStream :: rest => .use (number, .formatContext) :: seekLoop player number rest
  | .videoPacket false :: rest =>
      .use (number, .formatContext) :: decodeFrame number ++ seekLoop player number rest
  | .videoPacket true :: _ =>
      .use (number, .formatContext) :: decodeFrame number ++ showFrame player number ++
        [.use (number, .slider)]

/-- The loop ends with a frame. -/
def findsFrame : List ReadOutcome → Bool
  | [] => false
  | .endOfStream :: _ => false
  | .otherStream :: rest => findsFrame rest
  | .videoPacket false :: rest => findsFrame rest
  | .videoPacket true :: _ => true

def Player.setSeeking (player : Player) (number : Nat) (video : Video) (seeking : Bool) : Player :=
  { player with videos := player.videos.set number { video with seeking := seeking } }

def sliderEventCb (player : Player) (number : Nat) (video : Video) : SliderEvent → Player
  | .pressed =>
      (player.setSeeking number video true).record [.use (number, .contextStruct)]
  | .valueChanged reads =>
      if video.seeking then
        player.record
          ([.use (number, .contextStruct), .use (number, .slider), .use (number, .formatContext),
            .use (number, .codecContext)] ++ seekLoop player number reads)
      else player.record [.use (number, .contextStruct)]
  | .released =>
      (player.setSeeking number video false).record
        [.use (number, .contextStruct), .use (number, .slider)]

/-! ### Runs -/

inductive Act where
  | openVideo (attempt : Attempt)
  | tick (number : Nat) (outcome : ReadOutcome)
  | slide (number : Nat) (event : SliderEvent)

/-- The video that has an object which is still there. -/
def Player.withObject (player : Player) (number : Nat) (kind : Kind) : Option Video :=
  match player.videos[number]? with
  | none => none
  | some video => if video.status = .playing ∧ kind ∈ video.acquired then some video else none

def step (player : Player) : Act → Option Player
  | .openVideo attempt => openVideo player attempt
  | .tick number outcome =>
      (player.withObject number .timer).map fun video => videoTimerCb player number video outcome
  | .slide number event =>
      (player.withObject number .slider).map fun video => sliderEventCb player number video event

def noVideo : Player where
  canvas := none
  canvas_buf := none
  videos := []
  ledger := []

def playerSystem : System Player Act where
  Initial player := player = noVideo
  Step before act after := step before act = some after

/-- What a call acquired, and how far its video is. -/
def Player.account (player : Player) (number : Nat) : Option (Status × List Kind) :=
  player.videos[number]?.map fun video => (video.status, video.acquired)

/-- Whatever an open acquired is released once by the time it has failed or its
video has ended, and nothing is used behind its release. -/
structure Clean (player : Player) : Prop where
  settled : ∀ number status acquired kind, player.account number = some (status, acquired) →
    status ≠ .playing → .acquire (number, kind) ∈ player.ledger →
    releases player.ledger (number, kind) = 1
  once : ∀ item, releases player.ledger item ≤ 1
  safe : SafeUses player.ledger

/-! ### The steps that keep the ledger clean -/

/-- Every check of the open passes. -/
def Attempt.passes (attempt : Attempt) : Bool :=
  isMp4 attempt.full_path && attempt.succeeds .formatContext && attempt.findStreamInfo &&
    attempt.hasVideoStream && attempt.findDecoder && attempt.succeeds .codecContext

def Video.pointer (video : Video) (number : Nat) (kind : Kind) : Option Nat :=
  if kind ∈ video.acquired then some number else none

/-- The video has no sws context, and the globals are what its own open set. -/
def EndsAlone (player : Player) (number : Nat) (video : Video) : Prop :=
  .swsContext ∉ video.acquired ∧ player.canvas = video.pointer number .canvas ∧
    player.canvas_buf = video.pointer number .canvasBuf

/-- The video whose open set the global buffer is still playing. -/
def BufferLive (player : Player) : Prop :=
  ∀ owner, player.canvas_buf = some owner →
    ∃ acquired, player.account owner = some (.playing, acquired)

/-- An open that acquires anything passes its checks; a video ends alone; a
frame is shown while the global buffer is live. -/
def Allowed (_history : List Act) (player : Player) : Act → Prop
  | .openVideo attempt => isMp4 attempt.full_path = true → attempt.passes = true
  | .tick number .endOfStream => ∀ video, player.videos[number]? = some video →
      video.seeking = false → EndsAlone player number video
  | .tick number (.videoPacket true) => ∀ video, player.videos[number]? = some video →
      video.seeking = false → BufferLive player
  | .slide number (.valueChanged reads) => ∀ video, player.videos[number]? = some video →
      video.seeking = true → findsFrame reads = true → BufferLive player
  | _ => True

/-! ### The invariant -/

/-- A playing video has released nothing, any other call all it acquired, once;
the global canvas belongs to a playing video. -/
structure Accounted (player : Player) : Prop where
  unknown : ∀ number, player.account number = none →
    ∀ operation ∈ player.ledger, operation.item.1 ≠ number
  acquired : ∀ number status acquired kind, player.account number = some (status, acquired) →
    .acquire (number, kind) ∈ player.ledger → kind ∈ acquired
  playing : ∀ number acquired kind, player.account number = some (.playing, acquired) →
    releases player.ledger (number, kind) = 0
  settled : ∀ number status acquired kind, player.account number = some (status, acquired) →
    status ≠ .playing →
    releases player.ledger (number, kind) = if kind ∈ acquired then 1 else 0
  canvas : ∀ owner, player.canvas = some owner →
    ∃ acquired, player.account owner = some (.playing, acquired)
  safe : SafeUses player.ledger

theorem unknown_releases {player : Player} (accounted : Accounted player) {number : Nat}
    (unknown : player.account number = none) (kind : Kind) :
    releases player.ledger (number, kind) = 0 := by
  rw [releases_zero]
  intro released
  exact accounted.unknown number unknown _ released rfl

theorem accounted_clean {player : Player} (accounted : Accounted player) : Clean player := by
  refine ⟨?_, ?_, accounted.safe⟩
  · intro number status acquired kind known notPlaying acquires
    rw [accounted.settled number status acquired kind known notPlaying]
    exact if_pos (accounted.acquired number status acquired kind known acquires)
  · rintro ⟨number, kind⟩
    cases known : player.account number with
    | none =>
        rw [unknown_releases accounted known kind]
        exact Nat.zero_le 1
    | some account =>
        obtain ⟨status, acquired⟩ := account
        by_cases isPlaying : status = .playing
        · rw [isPlaying] at known
          rw [accounted.playing number acquired kind known]
          exact Nat.zero_le 1
        · rw [accounted.settled number status acquired kind known isPlaying]
          split
          · exact Nat.le_refl 1
          · exact Nat.zero_le 1

theorem noVideo_accounted : Accounted noVideo where
  unknown := nofun
  acquired := nofun
  playing := nofun
  settled := nofun
  canvas := nofun
  safe := safe_nil

/-! ### Operations that only use playing videos -/

def UsesPlaying (player : Player) (operations : Ledger) : Prop :=
  ∀ operation ∈ operations, ∃ item, operation = .use item ∧
    ∃ acquired, player.account item.1 = some (.playing, acquired)

theorem usesPlaying_append {player : Player} {first second : Ledger}
    (one : UsesPlaying player first) (two : UsesPlaying player second) :
    UsesPlaying player (first ++ second) := by
  intro operation member
  rcases List.mem_append.mp member with inFirst | inSecond
  · exact one operation inFirst
  · exact two operation inSecond

theorem usesPlaying_own {player : Player} {number : Nat} {acquired : List Kind}
    (playing : player.account number = some (.playing, acquired)) (kinds : List Kind) :
    UsesPlaying player (kinds.map fun kind => .use (number, kind)) := by
  intro operation member
  obtain ⟨kind, _, rfl⟩ := List.mem_map.mp member
  exact ⟨(number, kind), rfl, acquired, playing⟩

theorem usesPlaying_global {player : Player} {pointer : Option Nat} (kind : Kind)
    (live : ∀ owner, pointer = some owner →
      ∃ acquired, player.account owner = some (.playing, acquired)) :
    UsesPlaying player (useGlobal pointer kind) := by
  cases pointer with
  | none => nofun
  | some owner =>
      intro operation member
      rw [List.mem_singleton.mp member]
      exact ⟨(owner, kind), rfl, live owner rfl⟩

theorem showFrame_usesPlaying {player : Player} (accounted : Accounted player) {number : Nat}
    {acquired : List Kind} (playing : player.account number = some (.playing, acquired))
    (live : BufferLive player) : UsesPlaying player (showFrame player number) := by
  refine usesPlaying_append (usesPlaying_append ?_ ?_) ?_
  · exact usesPlaying_own playing [.swsContext, .frame, .codecContext]
  · refine usesPlaying_append (usesPlaying_append ?_ ?_) ?_
    · exact usesPlaying_own playing [.frameRGB, .rgbBuffer]
    · exact usesPlaying_global .canvasBuf live
    · exact usesPlaying_global .canvas accounted.canvas
  · exact usesPlaying_own playing [.formatContext]

theorem seekLoop_usesPlaying {player : Player} (accounted : Accounted player) {number : Nat}
    {acquired : List Kind} (playing : player.account number = some (.playing, acquired))
    (reads : List ReadOutcome) (live : findsFrame reads = true → BufferLive player) :
    UsesPlaying player (seekLoop player number reads) := by
  have decoded : UsesPlaying player (.use (number, .formatContext) :: decodeFrame number) :=
    usesPlaying_own playing [.formatContext, .codecContext, .frame]
  induction reads with
  | nil => exact usesPlaying_own playing [.formatContext]
  | cons outcome rest ih =>
      cases outcome with
      | endOfStream => exact usesPlaying_own playing [.formatContext]
      | otherStream =>
          exact usesPlaying_append (usesPlaying_own playing [.formatContext]) (ih live)
      | videoPacket frameFinished =>
          cases frameFinished with
          | false => exact usesPlaying_append decoded (ih live)
          | true =>
              refine usesPlaying_append (usesPlaying_append decoded ?_) ?_
              · exact showFrame_usesPlaying accounted playing (live rfl)
              · exact usesPlaying_own playing [.slider]

theorem usesPlaying_noRelease {player : Player} {operations : Ledger}
    (uses : UsesPlaying player operations) (item : Resource) : .release item ∉ operations := by
  intro member
  obtain ⟨used, isUse, _⟩ := uses _ member
  cases isUse

theorem usesPlaying_safe {player : Player} {operations : Ledger} (accounted : Accounted player)
    (uses : UsesPlaying player operations) : SafeUses (player.ledger ++ operations) := by
  refine safe_append accounted.safe (safe_noReleases (usesPlaying_noRelease uses)) ?_
  rintro ⟨number, kind⟩ member
  obtain ⟨used, isUse, acquired, playing⟩ := uses _ member
  cases isUse
  exact releases_zero.mp (accounted.playing number acquired kind playing)

theorem record_accounted {player : Player} {operations : Ledger} (accounted : Accounted player)
    (uses : UsesPlaying player operations) : Accounted (player.record operations) := by
  have sameReleases : ∀ item, releases (player.ledger ++ operations) item =
      releases player.ledger item := by
    intro item
    rw [releases_append, releases_zero.mpr (usesPlaying_noRelease uses item), Nat.add_zero]
  refine ⟨?_, ?_, ?_, ?_, accounted.canvas, usesPlaying_safe accounted uses⟩
  · intro number unknown operation member
    rcases List.mem_append.mp member with earlier | inOperations
    · exact accounted.unknown number unknown operation earlier
    · obtain ⟨item, rfl, acquired, playing⟩ := uses operation inOperations
      rintro rfl
      cases unknown.symm.trans playing
  · intro number status acquired kind known member
    rcases List.mem_append.mp member with earlier | inOperations
    · exact accounted.acquired number status acquired kind known earlier
    · obtain ⟨item, isUse, _⟩ := uses _ inOperations
      cases isUse
  · intro number acquired kind playing
    exact (sameReleases _).trans (accounted.playing number acquired kind playing)
  · intro number status acquired kind known notPlaying
    exact (sameReleases _).trans
      (accounted.settled number status acquired kind known notPlaying)

/-! ### What happens to the calls -/

theorem account_found {player : Player} {number : Nat} {video : Video}
    (found : player.videos[number]? = some video) :
    player.account number = some (video.status, video.acquired) := by
  unfold Player.account
  rw [found]
  rfl

theorem account_set {before after : Player} {number : Nat} {video replacement : Video}
    (found : before.videos[number]? = some video)
    (replaced : after.videos = before.videos.set number replacement) (other : Nat) :
    after.account other =
      if other = number then some (replacement.status, replacement.acquired)
      else before.account other := by
  unfold Player.account
  rw [replaced]
  by_cases same : other = number
  · rw [if_pos same, same, List.getElem?_set_self (List.getElem?_eq_some_iff.mp found).1]
    rfl
  · rw [if_neg same, List.getElem?_set_ne (Ne.symm same)]

theorem account_append {before after : Player} {video : Video}
    (appended : after.videos = before.videos ++ [video]) (other : Nat) :
    after.account other =
      if other = before.videos.length then some (video.status, video.acquired)
      else before.account other := by
  unfold Player.account
  rw [appended]
  by_cases same : other = before.videos.length
  · rw [if_pos same, same, List.getElem?_append_right (Nat.le_refl _), Nat.sub_self]
    rfl
  · rw [if_neg same]
    rcases Nat.lt_or_ge other before.videos.length with inside | beyond
    · rw [List.getElem?_append_left inside]
    · have behind : before.videos.length + 1 ≤ other :=
        Nat.lt_of_le_of_ne beyond (Ne.symm same)
      rw [List.getElem?_eq_none beyond, List.getElem?_eq_none]
      rw [List.length_append]
      exact behind

theorem account_length (player : Player) : player.account player.videos.length = none := by
  unfold Player.account
  rw [List.getElem?_eq_none (Nat.le_refl _)]
  rfl

theorem accounted_congr {before after : Player} (accounted : Accounted before)
    (sameAccount : ∀ number, after.account number = before.account number)
    (sameLedger : after.ledger = before.ledger) (sameCanvas : after.canvas = before.canvas) :
    Accounted after := by
  obtain ⟨unknown, acquired, playing, settled, canvas, safe⟩ := accounted
  refine ⟨?_, ?_, ?_, ?_, ?_, ?_⟩
  · intro number known
    rw [sameAccount] at known
    rw [sameLedger]
    exact unknown number known
  · intro number status kinds kind known
    rw [sameAccount] at known
    rw [sameLedger]
    exact acquired number status kinds kind known
  · intro number kinds kind known
    rw [sameAccount] at known
    rw [sameLedger]
    exact playing number kinds kind known
  · intro number status kinds kind known
    rw [sameAccount] at known
    rw [sameLedger]
    exact settled number status kinds kind known
  · intro owner isOwner
    rw [sameCanvas] at isOwner
    rw [sameAccount]
    exact canvas owner isOwner
  · rw [sameLedger]
    exact safe

/-- An account of one call that changes with operations on its own resources. -/
theorem accounted_change {before after : Player} {number : Nat} {status : Status}
    {kinds : List Kind} {operations : Ledger} (accounted : Accounted before)
    (account : ∀ other, after.account other =
      if other = number then some (status, kinds) else before.account other)
    (ledger : after.ledger = before.ledger ++ operations)
    (own : ∀ operation ∈ operations, operation.item.1 = number)
    (acquired : ∀ kind, .acquire (number, kind) ∈ after.ledger → kind ∈ kinds)
    (released : ∀ kind, releases after.ledger (number, kind) =
      if status ≠ .playing ∧ kind ∈ kinds then 1 else 0)
    (canvas : ∀ owner, after.canvas = some owner →
      ∃ held, after.account owner = some (.playing, held))
    (safe : SafeUses after.ledger) : Accounted after := by
  have others : ∀ other kind, other ≠ number →
      releases after.ledger (other, kind) = releases before.ledger (other, kind) := by
    intro other kind different
    have noRelease : .release (other, kind) ∉ operations := fun member => different (own _ member)
    rw [ledger, releases_append, releases_zero.mpr noRelease, Nat.add_zero]
  refine ⟨?_, ?_, ?_, ?_, canvas, safe⟩
  · intro other isUnknown operation member
    rw [account] at isUnknown
    by_cases same : other = number
    · rw [if_pos same] at isUnknown
      cases isUnknown
    · rw [if_neg same] at isUnknown
      rw [ledger] at member
      rcases List.mem_append.mp member with earlier | inOperations
      · exact accounted.unknown other isUnknown operation earlier
      · rw [own operation inOperations]
        exact Ne.symm same
  · intro other otherStatus otherKinds kind known member
    rw [account] at known
    by_cases same : other = number
    · rw [if_pos same] at known
      cases known
      exact acquired kind (same ▸ member)
    · rw [if_neg same] at known
      rw [ledger] at member
      rcases List.mem_append.mp member with earlier | inOperations
      · exact accounted.acquired other otherStatus otherKinds kind known earlier
      · exact absurd (own _ inOperations) same
  · intro other otherKinds kind known
    rw [account] at known
    by_cases same : other = number
    · rw [if_pos same] at known
      cases known
      rw [same, released, if_neg fun both => both.1 rfl]
    · rw [if_neg same] at known
      rw [others other kind same]
      exact accounted.playing other otherKinds kind known
  · intro other otherStatus otherKinds kind known notPlaying
    rw [account] at known
    by_cases same : other = number
    · rw [if_pos same] at known
      cases known
      rw [same, released]
      exact if_congr (and_iff_right notPlaying) rfl rfl
    · rw [if_neg same] at known
      rw [others other kind same]
      exact accounted.settled other otherStatus otherKinds kind known notPlaying

theorem setSeeking_account {player : Player} {number : Nat} {video : Video}
    (found : player.videos[number]? = some video) (seeking : Bool) (other : Nat) :
    (player.setSeeking number video seeking).account other = player.account other := by
  rw [account_set found rfl]
  by_cases same : other = number
  · rw [if_pos same, same]
    exact (account_found found).symm
  · exact if_neg same

theorem setSeeking_accounted {player : Player} {number : Nat} {video : Video}
    (accounted : Accounted player) (found : player.videos[number]? = some video) (seeking : Bool) :
    Accounted (player.setSeeking number video seeking) :=
  accounted_congr accounted (setSeeking_account found seeking) rfl rfl

/-! ### The end of a stream -/

def endKinds : List Kind :=
  [.timer, .slider, .canvas, .rgbBuffer, .frameRGB, .frame, .codecContext, .formatContext,
    .contextStruct, .canvasBuf]

theorem freedGlobal_pointer (number : Nat) (video : Video) (kind : Kind) :
    freedGlobal (video.pointer number kind) kind = freed number video kind := by
  unfold Video.pointer freed
  by_cases held : kind ∈ video.acquired
  · rw [if_pos held, if_pos held]
    rfl
  · rw [if_neg held, if_neg held]
    rfl

theorem endOfStream_alone {player : Player} {number : Nat} {video : Video}
    (alone : EndsAlone player number video) :
    endOfStream player number video = endKinds.flatMap (freed number video) := by
  obtain ⟨_, canvas, buffer⟩ := alone
  unfold endOfStream
  rw [canvas, buffer, freedGlobal_pointer, freedGlobal_pointer]
  simp only [endKinds, List.flatMap_cons, List.flatMap_nil, List.append_nil, List.append_assoc]

theorem mem_freed {number : Nat} {video : Video} {kinds : List Kind}
    {operation : Operation Resource} (member : operation ∈ kinds.flatMap (freed number video)) :
    ∃ kind, operation = .release (number, kind) := by
  obtain ⟨kind, _, inFreed⟩ := List.mem_flatMap.mp member
  unfold freed at inFreed
  split at inFreed
  · exact ⟨kind, List.mem_singleton.mp inFreed⟩
  · cases inFreed

theorem releases_freed (number : Nat) (video : Video) (kinds : List Kind) (other : Nat)
    (kind : Kind) :
    releases (kinds.flatMap (freed number video)) (other, kind) =
      if other = number ∧ kind ∈ video.acquired then kinds.count kind else 0 := by
  induction kinds with
  | nil => exact (ite_self 0).symm
  | cons first rest ih =>
      have head : releases (freed number video first) (other, kind) =
          if other = number ∧ kind ∈ video.acquired ∧ first = kind then 1 else 0 := by
        unfold freed releases
        by_cases held : first ∈ video.acquired
        · rw [if_pos held, List.count_singleton]
          by_cases same : first = kind
          · rw [same] at held ⊢
            by_cases own : other = number
            · rw [own]
              simp [held]
            · simp [own, Ne.symm own]
          · simp [same]
        · rw [if_neg held]
          by_cases same : first = kind
          · rw [same] at held
            simp [held]
          · simp [same]
      rw [List.flatMap_cons, releases_append, head, ih, List.count_cons]
      by_cases counted : other = number ∧ kind ∈ video.acquired
      · rw [if_pos counted, if_pos counted]
        by_cases same : first = kind
        · rw [if_pos ⟨counted.1, counted.2, same⟩, if_pos (beq_iff_eq.mpr same), Nat.add_comm]
        · rw [if_neg fun all => same all.2.2, if_neg fun equal => same (beq_iff_eq.mp equal),
            Nat.zero_add, Nat.add_zero]
      · rw [if_neg counted, if_neg counted, if_neg fun all => counted ⟨all.1, all.2.1⟩]

theorem endKinds_once {kind : Kind} (notSws : kind ≠ .swsContext) : endKinds.count kind = 1 := by
  cases kind with
  | swsContext => exact absurd rfl notSws
  | _ => rfl

/-- A playing video that releases all it acquired, and only that, has ended. -/
theorem freed_accounted {before after : Player} {number : Nat} {video : Video}
    (accounted : Accounted before) (found : before.videos[number]? = some video)
    (isPlaying : video.status = .playing) (notSws : .swsContext ∉ video.acquired)
    (replaced : after.videos = before.videos.set number { video with status := .ended })
    (ledger : after.ledger = before.ledger ++ endKinds.flatMap (freed number video))
    (canvas : after.canvas = none) : Accounted after := by
  have known := account_found found
  rw [isPlaying] at known
  have noUses : ∀ item, .use item ∉ endKinds.flatMap (freed number video) := by
    intro item member
    obtain ⟨kind, isRelease⟩ := mem_freed member
    cases isRelease
  refine accounted_change accounted (account_set found replaced) ledger ?_ ?_ ?_ ?_ ?_
  · intro operation member
    obtain ⟨kind, rfl⟩ := mem_freed member
    rfl
  · intro kind member
    rw [ledger] at member
    rcases List.mem_append.mp member with earlier | inFreed
    · exact accounted.acquired number _ _ kind known earlier
    · obtain ⟨other, isRelease⟩ := mem_freed inFreed
      cases isRelease
  · intro kind
    rw [ledger, releases_append, releases_freed, accounted.playing number video.acquired kind known,
      Nat.zero_add]
    by_cases held : kind ∈ video.acquired
    · have isFreed : kind ≠ .swsContext := fun isSws => notSws (isSws ▸ held)
      rw [if_pos ⟨rfl, held⟩, if_pos ⟨nofun, held⟩, endKinds_once isFreed]
    · rw [if_neg fun both => held both.2, if_neg fun both => held both.2]
  · rw [canvas]
    nofun
  · rw [ledger]
    exact safe_append accounted.safe (safe_noUses noUses) fun item member =>
      absurd member (noUses item)

theorem finish_accounted {player : Player} {number : Nat} {video : Video}
    (accounted : Accounted player) (found : player.videos[number]? = some video)
    (isPlaying : video.status = .playing) (alone : EndsAlone player number video) :
    Accounted (player.finish number video) := by
  have known := account_found found
  rw [isPlaying] at known
  -- First the callback reads a packet, then it only releases.
  have uses : UsesPlaying player [.use (number, .contextStruct), .use (number, .formatContext)] :=
    usesPlaying_own known [.contextStruct, .formatContext]
  refine freed_accounted (record_accounted accounted uses) found isPlaying alone.1 rfl ?_ rfl
  rw [← endOfStream_alone alone]
  exact (List.append_assoc _ _ _).symm

theorem videoTimerCb_accounted {history : List Act} {player : Player} {number : Nat}
    {video : Video} {outcome : ReadOutcome} (accounted : Accounted player)
    (found : player.videos[number]? = some video) (isPlaying : video.status = .playing)
    (meets : Allowed history player (.tick number outcome)) :
    Accounted (videoTimerCb player number video outcome) := by
  have known := account_found found
  rw [isPlaying] at known
  have own := usesPlaying_own known
  unfold videoTimerCb
  by_cases seeking : video.seeking = true
  · rw [if_pos seeking]
    exact record_accounted accounted (own [.contextStruct])
  · rw [if_neg seeking]
    have notSeeking : video.seeking = false := Bool.eq_false_iff.mpr seeking
    have decoded : UsesPlaying player
        ([.use (number, .contextStruct), .use (number, .formatContext)] ++ decodeFrame number) :=
      own [.contextStruct, .formatContext, .codecContext, .frame]
    cases outcome with
    | endOfStream => exact finish_accounted accounted found isPlaying (meets video found notSeeking)
    | otherStream => exact record_accounted accounted (own [.contextStruct, .formatContext])
    | videoPacket frameFinished =>
        cases frameFinished with
        | false => exact record_accounted accounted decoded
        | true =>
            have live := meets video found notSeeking
            refine record_accounted accounted (usesPlaying_append (usesPlaying_append decoded ?_) ?_)
            · exact showFrame_usesPlaying accounted known live
            · split
              · exact own [.slider]
              · exact own []

theorem sliderEventCb_accounted {history : List Act} {player : Player} {number : Nat}
    {video : Video} {event : SliderEvent} (accounted : Accounted player)
    (found : player.videos[number]? = some video) (isPlaying : video.status = .playing)
    (meets : Allowed history player (.slide number event)) :
    Accounted (sliderEventCb player number video event) := by
  have known := account_found found
  rw [isPlaying] at known
  have moved : ∀ seeking, (player.setSeeking number video seeking).account number =
      some (.playing, video.acquired) :=
    fun seeking => (setSeeking_account found seeking number).trans known
  cases event with
  | pressed =>
      exact record_accounted (setSeeking_accounted accounted found true)
        (usesPlaying_own (moved true) [.contextStruct])
  | valueChanged reads =>
      dsimp only [sliderEventCb]
      by_cases seeking : video.seeking = true
      · rw [if_pos seeking]
        refine record_accounted accounted (usesPlaying_append ?_ ?_)
        · exact usesPlaying_own known [.contextStruct, .slider, .formatContext, .codecContext]
        · exact seekLoop_usesPlaying accounted known reads (meets video found seeking)
      · rw [if_neg seeking]
        exact record_accounted accounted (usesPlaying_own known [.contextStruct])
  | released =>
      exact record_accounted (setSeeking_accounted accounted found false)
        (usesPlaying_own (moved false) [.contextStruct, .slider])

/-! ### An open -/

/-- Operations of one open: on its own resources, and no release. -/
def OpensOnly (number : Nat) (operations : Ledger) : Prop :=
  ∀ operation ∈ operations, operation.item.1 = number ∧ ∀ item, operation ≠ .release item

theorem opensOnly_append {number : Nat} {first second : Ledger} (one : OpensOnly number first)
    (two : OpensOnly number second) : OpensOnly number (first ++ second) := by
  intro operation member
  rcases List.mem_append.mp member with inFirst | inSecond
  · exact one operation inFirst
  · exact two operation inSecond

theorem opensOnly_nil (number : Nat) : OpensOnly number [] := nofun

theorem opensOnly_cons {number : Nat} {operation : Operation Resource} {operations : Ledger}
    (own : operation.item.1 = number) (notRelease : ∀ item, operation ≠ .release item)
    (rest : OpensOnly number operations) : OpensOnly number (operation :: operations) := by
  intro other member
  rcases List.mem_cons.mp member with rfl | inRest
  · exact ⟨own, notRelease⟩
  · exact rest other inRest

theorem opensOnly_acquire (attempt : Attempt) (number : Nat) (kind : Kind) :
    OpensOnly number (attempt.acquire number kind) := by
  unfold Attempt.acquire
  split
  · exact opensOnly_cons rfl nofun (opensOnly_nil number)
  · exact opensOnly_nil number

theorem opensOnly_unchecked (attempt : Attempt) (number : Nat) :
    OpensOnly number (openUnchecked attempt number) := by
  have acquire := opensOnly_acquire attempt number
  have canvas : OpensOnly number (videoCanvasInit attempt number) :=
    opensOnly_append (opensOnly_append (acquire .canvasBuf) (acquire .canvas))
      (opensOnly_cons rfl nofun (opensOnly_cons rfl nofun (opensOnly_nil number)))
  have frames : OpensOnly number
      (attempt.acquire number .frame ++ attempt.acquire number .frameRGB ++
        attempt.acquire number .rgbBuffer ++ attempt.acquire number .swsContext) :=
    opensOnly_append (opensOnly_append (opensOnly_append (acquire .frame) (acquire .frameRGB))
      (acquire .rgbBuffer)) (acquire .swsContext)
  exact opensOnly_append
    (opensOnly_append (opensOnly_append (opensOnly_append frames canvas) (acquire .slider))
      (opensOnly_cons rfl nofun (opensOnly_cons rfl nofun (opensOnly_nil number))))
    (acquire .timer)

theorem open_rejected {attempt : Attempt} (notMp4 : isMp4 attempt.full_path = false)
    (number : Nat) : lvExampleOpenVideo attempt number = (.rejected, []) := by
  unfold lvExampleOpenVideo
  rw [notMp4]
  rfl

theorem open_passes {attempt : Attempt} (passes : attempt.passes = true) (number : Nat) :
    (lvExampleOpenVideo attempt number).1 = .playing ∧
      OpensOnly number (lvExampleOpenVideo attempt number).2 := by
  unfold Attempt.passes at passes
  simp only [Bool.and_eq_true] at passes
  obtain ⟨⟨⟨⟨⟨mp4, format⟩, stream⟩, video⟩, decoder⟩, codec⟩ := passes
  unfold lvExampleOpenVideo
  rw [mp4, format, stream, video, decoder, codec]
  have opened : OpensOnly number
      [.acquire (number, .contextStruct), .use (number, .contextStruct),
        .acquire (number, .formatContext), .use (number, .formatContext),
        .acquire (number, .codecContext)] :=
    opensOnly_cons rfl nofun (opensOnly_cons rfl nofun (opensOnly_cons rfl nofun
      (opensOnly_cons rfl nofun (opensOnly_cons rfl nofun (opensOnly_nil number)))))
  exact ⟨rfl, opensOnly_append opened (opensOnly_unchecked attempt number)⟩

/-- A new call that plays, or that has acquired nothing. -/
theorem append_accounted {before after : Player} {video : Video} {operations : Ledger}
    (accounted : Accounted before) (opens : OpensOnly before.videos.length operations)
    (kinds : video.acquired = operations.filterMap acquiredKind)
    (begun : video.status ≠ .playing → operations = [])
    (appended : after.videos = before.videos ++ [video])
    (ledger : after.ledger = before.ledger ++ operations)
    (canvas : ∀ owner, after.canvas = some owner → before.canvas = some owner ∨
      owner = before.videos.length ∧ video.status = .playing) : Accounted after := by
  have unknown := account_length before
  have account := account_append appended
  have noRelease : ∀ item, .release item ∉ operations :=
    fun item member => (opens _ member).2 item rfl
  refine accounted_change accounted account ledger (fun operation member => (opens _ member).1)
    ?_ ?_ ?_ ?_
  · intro kind member
    rw [ledger] at member
    rcases List.mem_append.mp member with earlier | inOperations
    · exact absurd rfl (accounted.unknown before.videos.length unknown _ earlier)
    · rw [kinds]
      exact List.mem_filterMap.mpr ⟨_, inOperations, rfl⟩
  · intro kind
    rw [ledger, releases_append, releases_zero.mpr (noRelease _), unknown_releases accounted unknown,
      if_neg]
    rintro ⟨notPlaying, held⟩
    rw [kinds, begun notPlaying] at held
    cases held
  · intro owner isOwner
    rw [account]
    rcases canvas owner isOwner with earlier | ⟨isNew, isPlaying⟩
    · obtain ⟨acquired, known⟩ := accounted.canvas owner earlier
      have different : owner ≠ before.videos.length := by
        rintro rfl
        cases unknown.symm.trans known
      rw [if_neg different]
      exact ⟨acquired, known⟩
    · rw [if_pos isNew, isPlaying]
      exact ⟨_, rfl⟩
  · rw [ledger]
    refine safe_append accounted.safe (safe_noReleases noRelease) ?_
    intro item member released
    exact accounted.unknown before.videos.length unknown _ released (opens _ member).1

theorem openVideo_accounted {before after : Player} {attempt : Attempt}
    (accounted : Accounted before)
    (meets : isMp4 attempt.full_path = true → attempt.passes = true)
    (opened : openVideo before attempt = some after) : Accounted after := by
  unfold openVideo at opened
  cases mp4 : isMp4 attempt.full_path with
  | false =>
      rw [open_rejected mp4] at opened
      cases opened
      refine append_accounted accounted (opensOnly_nil _) rfl (fun _ => rfl) rfl ?_ ?_
      · exact (List.append_nil _).symm
      · exact fun owner isOwner => Or.inl isOwner
  | true =>
      obtain ⟨isPlaying, opens⟩ := open_passes (meets mp4) before.videos.length
      rw [isPlaying] at opened
      obtain ⟨_, result⟩ := Option.ite_none_right_eq_some.mp opened
      cases result
      refine append_accounted accounted opens rfl (fun other => absurd rfl other) rfl rfl ?_
      intro owner isOwner
      obtain ⟨_, isNew⟩ := Option.ite_none_right_eq_some.mp isOwner
      exact Or.inr ⟨(Option.some.inj isNew).symm, rfl⟩

/-! ### The player -/

theorem withObject_found {player : Player} {number : Nat} {kind : Kind} {video : Video}
    (present : player.withObject number kind = some video) :
    player.videos[number]? = some video ∧ video.status = .playing := by
  unfold Player.withObject at present
  cases found : player.videos[number]? with
  | none =>
      rw [found] at present
      cases present
  | some other =>
      rw [found] at present
      obtain ⟨held, same⟩ := Option.ite_none_right_eq_some.mp present
      cases same
      exact ⟨rfl, held.1⟩

theorem step_accounted {history : List Act} {before after : Player} {act : Act}
    (accounted : Accounted before) (meets : Allowed history before act)
    (stepped : step before act = some after) : Accounted after := by
  cases act with
  | openVideo attempt => exact openVideo_accounted accounted meets stepped
  | tick number outcome =>
      obtain ⟨video, present, rfl⟩ := Option.map_eq_some_iff.mp stepped
      obtain ⟨found, isPlaying⟩ := withObject_found present
      exact videoTimerCb_accounted accounted found isPlaying meets
  | slide number event =>
      obtain ⟨video, present, rfl⟩ := Option.map_eq_some_iff.mp stepped
      obtain ⟨found, isPlaying⟩ := withObject_found present
      exact sliderEventCb_accounted accounted found isPlaying meets

/-- In a run whose steps are all allowed, every state is clean. -/
theorem player_clean {history : List Act} {player : Player}
    (run : RunsWhere playerSystem Allowed history player) : Clean player := by
  refine accounted_clean (run.invariant (fun _ player => Accounted player) ?_ ?_)
  · rintro initial rfl
    exact noVideo_accounted
  · intro history before act after accounted meets stepped
    exact step_accounted accounted meets stepped

def movie (succeeds : Kind → Bool) : Attempt where
  full_path := some "/userdata/ums/video/20250809/movie.mp4".toList
  succeeds := succeeds
  findStreamInfo := true
  hasVideoStream := true
  findDecoder := true

def allBut (kind : Kind) : Attempt := movie fun other => other != kind

def next (player : Player) (act : Act) : Player := (step player act).getD player

def withoutSws : Player := next noVideo (.openVideo (allBut .swsContext))

/-- A frame, then the slider to another frame, then the end of the stream, last act first. -/
def watching : List Act :=
  [.tick 0 .endOfStream, .tick 0 .otherStream, .slide 0 .released,
    .slide 0 (.valueChanged [.videoPacket false, .videoPacket true]),
    .tick 0 (.videoPacket true), .slide 0 .pressed, .tick 0 (.videoPacket true),
    .openVideo (allBut .swsContext)]

def watched : Player := watching.foldr (fun act player => next player act) noVideo

theorem movie_clean :
    RunsWhere playerSystem Allowed watching watched ∧ Clean watched ∧
      releases watched.ledger (0, .canvasBuf) = 1 := by
  have live {player : Player} (buffer : player.canvas_buf = some 0)
      (playing : (player.account 0).map Prod.fst = some .playing) : BufferLive player := by
    intro owner isOwner
    cases buffer.symm.trans isOwner
    obtain ⟨⟨status, acquired⟩, known, isPlaying⟩ := Option.map_eq_some_iff.mp playing
    cases isPlaying
    exact ⟨acquired, known⟩
  have opened : RunsWhere playerSystem Allowed (.openVideo (allBut .swsContext) :: []) withoutSws :=
    RunsWhere.next (RunsWhere.start rfl) (fun _ => rfl) rfl
  have shown : RunsWhere playerSystem Allowed (.tick 0 (.videoPacket true) :: _) _ :=
    RunsWhere.next opened (fun _ _ _ => live rfl rfl) rfl
  have pressed : RunsWhere playerSystem Allowed (.slide 0 .pressed :: _) _ :=
    RunsWhere.next shown trivial rfl
  have waiting : RunsWhere playerSystem Allowed (.tick 0 (.videoPacket true) :: _) _ :=
    RunsWhere.next pressed (fun _ _ _ => live rfl rfl) rfl
  have sought : RunsWhere playerSystem Allowed
      (.slide 0 (.valueChanged [.videoPacket false, .videoPacket true]) :: _) _ :=
    RunsWhere.next waiting (fun _ _ _ _ => live rfl rfl) rfl
  have released : RunsWhere playerSystem Allowed
      (.tick 0 .otherStream :: .slide 0 .released :: _) _ :=
    RunsWhere.next (RunsWhere.next sought trivial rfl) trivial rfl
  have run : RunsWhere playerSystem Allowed watching watched := by
    refine RunsWhere.next released ?_ rfl
    intro video found _
    cases found
    exact ⟨by decide, rfl, rfl⟩
  exact ⟨run, player_clean run, by decide⟩

def allSucceed : Attempt := movie fun _ => true

def oneVideo : Player := next noVideo (.openVideo allSucceed)

def oneEnded : Player := next oneVideo (.tick 0 .endOfStream)

def openFailed : Player := next noVideo (.openVideo (allBut .codecContext))

def twoVideos : Player := next oneVideo (.openVideo allSucceed)

def bothEnded : Player := next (next twoVideos (.tick 1 .endOfStream)) (.tick 0 .endOfStream)

/-- A video that plays to its end keeps its sws context, an open that fails its
context, and of two videos at once the buffer of the later one is freed twice. -/
theorem player_leaks :
    (Runs playerSystem [.tick 0 .endOfStream, .openVideo allSucceed] oneEnded ∧
      releases oneEnded.ledger (0, .swsContext) = 0 ∧ ¬Clean oneEnded) ∧
    (Runs playerSystem [.openVideo (allBut .codecContext)] openFailed ∧
      releases openFailed.ledger (0, .contextStruct) = 0 ∧ ¬Clean openFailed) ∧
    Runs playerSystem [.tick 0 .endOfStream, .tick 1 .endOfStream, .openVideo allSucceed,
        .openVideo allSucceed] bothEnded ∧
      releases bothEnded.ledger (1, .canvasBuf) = 2 ∧ ¬Clean bothEnded := by
  have one : Runs playerSystem [.openVideo allSucceed] oneVideo := Runs.next (Runs.start rfl) rfl
  have two : Runs playerSystem [.openVideo allSucceed, .openVideo allSucceed] twoVideos :=
    Runs.next one rfl
  refine ⟨⟨Runs.next one rfl, by decide, ?_⟩, ⟨Runs.next (Runs.start rfl) rfl, by decide, ?_⟩,
    Runs.next (Runs.next two rfl) rfl, by decide, ?_⟩
  · intro clean
    have released := clean.settled 0 .ended _ .swsContext rfl (by decide) (by decide)
    exact absurd released (by decide)
  · intro clean
    have released := clean.settled 0 .failed _ .contextStruct rfl (by decide) (by decide)
    exact absurd released (by decide)
  · intro clean
    exact absurd (clean.once (1, .canvasBuf)) (by decide)

end BuildLinux.Concrete.VideoPlayer
