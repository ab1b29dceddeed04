/-
The progress slider of the video player in package/ffmpeg/video_save.c.

The open takes the range from the duration of the container, in whole seconds.
The timer and the slider's own callback put the slider at the time of the frame
they show, which FFmpeg rescales to milliseconds.  LVGL's values are 32 bits
wide.
-/

import BuildLinux.Concrete.Mp4Writer
import Mathlib.Tactic.Ring

namespace BuildLinux.Concrete.ProgressSlider

open Mp4Writer (AVRational avRescaleQ)

/-- The conversion of an `int64_t` to `int32_t`. -/
def toInt32 (value : Int) : Int := value.bmod 4294967296

/-- An `lv_slider` that begins at zero, with the last value it was given. -/
structure Slider where
  max : Int
  value : Int
  deriving DecidableEq, Repr

/-- The members of `video_context_t` that concern the time. -/
structure VideoContext where
  duration : Int
  current_pts : Int
  slider : Slider
  deriving DecidableEq, Repr

/-- A decoded frame, with the time base of its stream; no pts is `AV_NOPTS_VALUE`. -/
structure Frame where
  pts : Option Int
  time_base : AVRational
  deriving DecidableEq, Repr

def avTimeBase : Int := 1000000

def milliseconds : AVRational := ⟨1, 1000⟩

/-- `lv_example_open_video` on a container of this duration, if it has one. -/
def lvExampleOpenVideo (containerDuration : Option Int) : VideoContext :=
  let duration :=
    match containerDuration with
    | some microseconds => microseconds.tdiv avTimeBase * 1000
    | none => 0
  { duration := duration
    current_pts := 0
    slider := { max := toInt32 (if duration > 0 then duration else 100), value := 0 } }

def VideoContext.setPosition (ctx : VideoContext) (current_pts : Int) : VideoContext :=
  { ctx with
    current_pts := current_pts
    slider := { ctx.slider with value := toInt32 current_pts } }

section Callbacks

variable (avRescale : Int → AVRational → AVRational → Int)

/-- `video_timer_cb` on a finished frame. -/
def videoTimerCb (frame : Frame) (ctx : VideoContext) : VideoContext :=
  match frame.pts with
  | some pts => ctx.setPosition (avRescale pts frame.time_base milliseconds)
  | none => ctx.setPosition ctx.current_pts

/-- `slider_event_cb` on a new value and the frame found for it; a frame without
pts is rescaled from `INT64_MIN`. -/
def sliderEventCb (frame : Frame) (position : Int) (ctx : VideoContext) : VideoContext :=
  let moved : VideoContext := { ctx with current_pts := position }
  moved.setPosition (avRescale (frame.pts.getD (-9223372036854775808)) frame.time_base milliseconds)

/-- `av_rescale_q` gives the nearest integer, and the upper one halfway, where
that fits 64 bits. -/
def RoundsToNearest : Prop :=
  ∀ value source target, 0 ≤ value → 0 < source.num → 0 < source.den → 0 < target.num →
    0 < target.den →
    value * (source.num * target.den) < 2 ^ 62 * (target.num * source.den) →
    (target.num * source.den) * (2 * avRescale value source target) ≤
        2 * (value * (source.num * target.den)) + target.num * source.den ∧
      2 * (value * (source.num * target.den)) + target.num * source.den <
        (target.num * source.den) * (2 * avRescale value source target + 2)

end Callbacks

/-- The frame has a time between the start and the end of the video. -/
def Frame.InVideo (frame : Frame) (pts duration : Int) : Prop :=
  frame.pts = some pts ∧ 0 ≤ pts ∧ 0 < frame.time_base.num ∧ 0 < frame.time_base.den ∧
    pts * frame.time_base.num * 1000000 ≤ duration * frame.time_base.den

def Slider.InRange (slider : Slider) : Prop := 0 ≤ slider.value ∧ slider.value ≤ slider.max

/-- Every frame of the video has its place on the slider, and every place on the
slider is a time of the video. -/
structure CoversVideo (avRescale : Int → AVRational → AVRational → Int) (duration : Int) :
    Prop where
  timer : ∀ frame pts ctx, frame.InVideo pts duration →
    ctx.slider.max = (lvExampleOpenVideo (some duration)).slider.max →
    (videoTimerCb avRescale frame ctx).slider.InRange
  seek : ∀ frame pts position ctx, frame.InVideo pts duration →
    ctx.slider.max = (lvExampleOpenVideo (some duration)).slider.max →
    (sliderEventCb avRescale frame position ctx).slider.InRange
  positions : ∀ position, 0 ≤ position →
    position ≤ (lvExampleOpenVideo (some duration)).slider.max → position * 1000 ≤ duration

/-- The duration rounds to whole seconds, or to the range that stands in for none. -/
def WholeSeconds (duration : Int) : Prop :=
  duration / 1000 < 2147483648 ∧
    (1000000 ≤ duration ∧ duration % 1000000 < 500 ∨ 100000 ≤ duration ∧ duration < 100500)

/-! ### The range and the positions -/

theorem toInt32_small {value : Int} (natural : 0 ≤ value) (below : value < 2147483648) :
    toInt32 value = value := by
  apply Int.bmod_eq_of_le <;> omega

theorem toInt32_large {value : Int} (above : 2147483648 ≤ value) (below : value < 4294967296) :
    toInt32 value = value - 4294967296 := by
  have whole : value % ((4294967296 : Nat) : Int) = value := Int.emod_eq_of_lt (by omega) below
  rw [toInt32, Int.bmod_eq_emod, whole, if_pos (by omega)]
  rfl

theorem openVideo_max {duration : Int} (positive : 0 < duration) :
    (lvExampleOpenVideo (some duration)).slider.max =
      toInt32 (if 1000000 ≤ duration then duration / 1000000 * 1000 else 100) := by
  have whole : duration.tdiv avTimeBase = duration / 1000000 :=
    Int.tdiv_eq_ediv_of_nonneg (by omega)
  unfold lvExampleOpenVideo
  dsimp only
  rw [whole]
  congr 1
  by_cases long : 1000000 ≤ duration
  · rw [if_pos long, if_pos (by omega)]
  · rw [if_neg long, if_neg (by omega)]

theorem openVideo_range {duration : Int} (positive : 0 < duration)
    (small : duration / 1000 < 2147483648) :
    (lvExampleOpenVideo (some duration)).slider.max =
      if 1000000 ≤ duration then duration / 1000000 * 1000 else 100 := by
  rw [openVideo_max positive]
  apply toInt32_small
  · split <;> omega
  · split <;> omega

/-- The frame at a time in microseconds. -/
def frameAt (microseconds : Int) : Frame where
  pts := some microseconds
  time_base := ⟨1, 1000000⟩

theorem frameAt_inVideo {microseconds duration : Int} (natural : 0 ≤ microseconds)
    (within : microseconds ≤ duration) : (frameAt microseconds).InVideo microseconds duration := by
  refine ⟨rfl, natural, Int.zero_lt_one, Int.natCast_pos.mpr (Nat.succ_pos 999999), ?_⟩
  change microseconds * 1 * 1000000 ≤ duration * 1000000
  omega

section Frames

variable {avRescale : Int → AVRational → AVRational → Int} (nearest : RoundsToNearest avRescale)

include nearest

/-- Milliseconds, rounded: at most half of one behind the end of the video. -/
theorem frame_bounds {frame : Frame} {pts duration : Int} (inVideo : frame.InVideo pts duration)
    (fits : duration / 1000 < 4294967296) :
    0 ≤ avRescale pts frame.time_base milliseconds ∧
      1000 * avRescale pts frame.time_base milliseconds ≤ duration + 500 := by
  obtain ⟨_, natural, num, den, within⟩ := inVideo
  have room : duration * frame.time_base.den ≤ 4294967296000 * frame.time_base.den :=
    Int.mul_le_mul_of_nonneg_right (by omega) den.le
  have start : 0 ≤ pts * frame.time_base.num := Int.mul_nonneg natural num.le
  have scaled : pts * (frame.time_base.num * milliseconds.den) =
      1000 * (pts * frame.time_base.num) := by
    change pts * (frame.time_base.num * 1000) = _
    ring
  have unit : milliseconds.num * frame.time_base.den = frame.time_base.den := Int.one_mul _
  obtain ⟨below, above⟩ := nearest pts frame.time_base milliseconds natural num den (by decide)
    (by decide) (by rw [scaled, unit]; omega)
  rw [scaled, unit] at below above
  constructor
  · have positive : frame.time_base.den * 0 <
        frame.time_base.den * (2 * avRescale pts frame.time_base milliseconds + 2) := by omega
    have factor := Int.lt_of_mul_lt_mul_left positive den.le
    omega
  · have bounded : frame.time_base.den *
          (1000 * (2 * avRescale pts frame.time_base milliseconds)) ≤
        frame.time_base.den * (2 * duration + 1000) := by
      have thousandfold := Int.mul_le_mul_of_nonneg_left below (by omega : (0 : Int) ≤ 1000)
      calc frame.time_base.den * (1000 * (2 * avRescale pts frame.time_base milliseconds))
          = 1000 * (frame.time_base.den * (2 * avRescale pts frame.time_base milliseconds)) := by
            ring
        _ ≤ 1000 * (2 * (1000 * (pts * frame.time_base.num)) + frame.time_base.den) :=
            thousandfold
        _ = 2 * (pts * frame.time_base.num * 1000000) + 1000 * frame.time_base.den := by ring
        _ ≤ 2 * (duration * frame.time_base.den) + 1000 * frame.time_base.den := by omega
        _ = frame.time_base.den * (2 * duration + 1000) := by ring
    have factor := Int.le_of_mul_le_mul_left bounded den
    omega

/-- A frame half a millisecond behind a whole one rounds up. -/
theorem half_rounds_up {whole : Int} (natural : 0 ≤ whole) (below : whole < 2147483648) :
    avRescale (whole * 1000 + 500) ⟨1, 1000000⟩ milliseconds = whole + 1 := by
  obtain ⟨below, above⟩ := nearest (whole * 1000 + 500) ⟨1, 1000000⟩ milliseconds (by omega)
    (by decide) (by decide) (by decide) (by decide)
    (by change (whole * 1000 + 500) * (1 * 1000) < 2 ^ 62 * (1 * 1000000); omega)
  change (1 * 1000000) * (2 * avRescale (whole * 1000 + 500) ⟨1, 1000000⟩ milliseconds) ≤
    2 * ((whole * 1000 + 500) * (1 * 1000)) + 1 * 1000000 at below
  change 2 * ((whole * 1000 + 500) * (1 * 1000)) + 1 * 1000000 <
    (1 * 1000000) * (2 * avRescale (whole * 1000 + 500) ⟨1, 1000000⟩ milliseconds + 2) at above
  omega

theorem position_inRange {frame : Frame} {pts duration : Int} (whole : WholeSeconds duration)
    (inVideo : frame.InVideo pts duration) {ctx : VideoContext}
    (range : ctx.slider.max = (lvExampleOpenVideo (some duration)).slider.max) :
    (ctx.setPosition (avRescale pts frame.time_base milliseconds)).slider.InRange := by
  obtain ⟨small, seconds⟩ := whole
  obtain ⟨natural, atMost⟩ := frame_bounds nearest inVideo (by omega)
  rw [openVideo_range (by omega) small] at range
  have reached : avRescale pts frame.time_base milliseconds ≤ ctx.slider.max := by
    rw [range]
    split <;> omega
  have value : toInt32 (avRescale pts frame.time_base milliseconds) =
      avRescale pts frame.time_base milliseconds := toInt32_small natural (by omega)
  unfold Slider.InRange VideoContext.setPosition
  dsimp only
  rw [value]
  exact ⟨natural, reached⟩

theorem whole_covers {duration : Int} (whole : WholeSeconds duration) :
    CoversVideo avRescale duration := by
  constructor
  · intro frame pts ctx inVideo range
    rw [videoTimerCb, inVideo.1]
    exact position_inRange nearest whole inVideo range
  · intro frame pts position ctx inVideo range
    rw [sliderEventCb, inVideo.1]
    exact position_inRange nearest whole inVideo range
  · intro position natural inRange
    obtain ⟨small, seconds⟩ := whole
    rw [openVideo_range (by omega) small] at inRange
    split at inRange <;> omega

/-- With a frame half a millisecond behind the range the slider is too short. -/
theorem range_too_short {duration whole : Int}
    (range : (lvExampleOpenVideo (some duration)).slider.max = whole) (natural : 0 ≤ whole)
    (below : whole < 2147483647) (longer : whole * 1000 + 500 ≤ duration) :
    ¬CoversVideo avRescale duration := by
  intro covers
  have inRange := covers.timer _ _ (lvExampleOpenVideo (some duration))
    (frameAt_inVideo (by omega) longer) rfl
  change 0 ≤ toInt32 (avRescale (whole * 1000 + 500) ⟨1, 1000000⟩ milliseconds) ∧
    toInt32 (avRescale (whole * 1000 + 500) ⟨1, 1000000⟩ milliseconds) ≤
      (lvExampleOpenVideo (some duration)).slider.max at inRange
  rw [half_rounds_up nearest natural (by omega), toInt32_small (by omega) (by omega),
    range] at inRange
  omega

theorem covers_whole {duration : Int} (positive : 0 < duration)
    (fits : duration / 1000 < 4294967296) (covers : CoversVideo avRescale duration) :
    WholeSeconds duration := by
  by_cases large : 2147483648 ≤ duration / 1000000 * 1000
  · -- The range is negative, so that not even the first frame is in it.
    have range : (lvExampleOpenVideo (some duration)).slider.max =
        duration / 1000000 * 1000 - 4294967296 := by
      rw [openVideo_max positive, if_pos (by omega), toInt32_large large (by omega)]
    have inRange := covers.timer _ _ (lvExampleOpenVideo (some duration))
      (frameAt_inVideo (Int.le_refl 0) positive.le) rfl
    have sign : 0 ≤ (lvExampleOpenVideo (some duration)).slider.max :=
      inRange.1.trans inRange.2
    omega
  · by_cases long : 1000000 ≤ duration
    · have range : (lvExampleOpenVideo (some duration)).slider.max =
          duration / 1000000 * 1000 := by
        rw [openVideo_max positive, if_pos long, toInt32_small (by omega) (by omega)]
      by_contra broken
      refine range_too_short nearest range (by omega) (by omega) ?_ covers
      unfold WholeSeconds at broken
      omega
    · have range : (lvExampleOpenVideo (some duration)).slider.max = 100 := by
        rw [openVideo_max positive, if_neg long, toInt32_small (by omega) (by omega)]
      have last := covers.positions 100 (by omega) range.ge
      by_contra broken
      refine range_too_short nearest range (by omega) (by omega) ?_ covers
      unfold WholeSeconds at broken
      omega

theorem slider_covers_iff {duration : Int} (positive : 0 < duration)
    (fits : duration / 1000 < 4294967296) :
    CoversVideo avRescale duration ↔ WholeSeconds duration :=
  ⟨covers_whole nearest positive fits, whole_covers nearest⟩

end Frames

/-- The definition by integer division rounds as `av_rescale_q` does. -/
theorem avRescaleQ_nearest : RoundsToNearest avRescaleQ := by
  intro value source target natural _ den num _ _
  have positive : 0 < target.num * source.den := Int.mul_pos num den
  unfold avRescaleQ
  dsimp only
  rw [if_pos natural]
  generalize value * (source.num * target.den) = b
  generalize target.num * source.den = c at positive
  have lower := Int.mul_ediv_self_le (x := b + c / 2) positive.ne'
  have upper := Int.lt_mul_ediv_self_add (x := b + c / 2) positive
  rw [Int.mul_add, Int.mul_left_comm]
  omega

theorem two_seconds_covered : CoversVideo avRescaleQ 2000000 :=
  (slider_covers_iff avRescaleQ_nearest (by decide) (by decide)).mpr ⟨by decide, by decide⟩

/-- The last frame of a video of one and a half seconds is put at 1500 of 1000. -/
theorem last_frame_outside :
    (videoTimerCb avRescaleQ (frameAt 1500000) (lvExampleOpenVideo (some 1500000))).slider =
        { max := 1000, value := 1500 } ∧
      ¬CoversVideo avRescaleQ 1500000 := by
  refine ⟨by decide, fun covers => ?_⟩
  have inRange := covers.timer _ _ (lvExampleOpenVideo (some 1500000))
    (@frameAt_inVideo 1500000 1500000 (by decide) (by decide)) rfl
  exact absurd inRange.2 (by decide)

end BuildLinux.Concrete.ProgressSlider
