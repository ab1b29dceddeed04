/-
The choice of a pixel format by V4l2InitDevice in driver/v4l2/video2lcd/video/v4l2.c.

The device lists its formats one index at a time, until the ioctl fails.  The
loop stores a format only when it finds one, and the check behind it reads the
field of the caller's structure, which nothing clears before.
-/

import BuildLinux.Concrete.V4l2Device

namespace BuildLinux.Concrete.V4l2Formats

open V4l2Device

/-! ### The loop over the formats -/

/-- The loop over `VIDIOC_ENUM_FMT` from an index on, with what
`ptVideoDevice->iPixelFormat` holds before.  The ioctl fails behind the list. -/
def enumFormats (formats : List Nat) (index : Nat) (iPixelFormat : Nat) : Nat :=
  if inList : index < formats.length then
    if isSupportThisFormat formats[index] then formats[index]
    else enumFormats formats (index + 1) iPixelFormat
  else iPixelFormat
termination_by formats.length - index

theorem enumFormats_eq_find (formats : List Nat) (index iPixelFormat : Nat) :
    enumFormats formats index iPixelFormat =
      ((formats.drop index).find? isSupportThisFormat).getD iPixelFormat := by
  fun_induction enumFormats formats index iPixelFormat with
  | case1 index inList supported =>
      rw [List.drop_eq_getElem_cons inList, List.find?_cons_of_pos supported]
      rfl
  | case2 index inList unsupported ih =>
      rw [ih, List.drop_eq_getElem_cons inList, List.find?_cons_of_neg unsupported]
  | case3 index behind =>
      rw [List.drop_eq_nil_of_le (Nat.not_lt.mp behind)]
      rfl

/-- The format that the initialisation goes on with is the one its loop leaves. -/
theorem chosenFormat_eq_enumFormats (answers : Answers) (device : VideoDevice) :
    chosenFormat answers device = enumFormats answers.formats 0 device.iPixelFormat := by
  rw [enumFormats_eq_find]
  rfl

theorem find_supported {formats : List Nat}
    (supported : ∃ format ∈ formats, isSupportThisFormat format = true) :
    ∃ format, formats.find? isSupportThisFormat = some format ∧
      isSupportThisFormat format = true := by
  have isSome : (formats.find? isSupportThisFormat).isSome := List.find?_isSome.mpr supported
  obtain ⟨format, isFound⟩ := Option.isSome_iff_exists.mp isSome
  exact ⟨format, isFound, List.find?_some isFound⟩

theorem chosenFormat_of_unsupported {answers : Answers} (device : VideoDevice)
    (unsupported : ¬∃ format ∈ answers.formats, isSupportThisFormat format = true) :
    chosenFormat answers device = device.iPixelFormat := by
  have notFound : answers.formats.find? isSupportThisFormat = none :=
    List.find?_eq_none.mpr fun format listed supported => unsupported ⟨format, listed, supported⟩
  rw [chosenFormat, notFound, Option.getD_none]

/-! ### The steps behind the choice -/

/-- Every step of the initialisation but the choice of the format succeeds. -/
structure OtherStepsSucceed (answers : Answers) (capabilities : Capabilities) (count : Nat) :
    Prop where
  opened : answers.opened = true
  querycap : answers.querycap = some capabilities
  videoCapture : capabilities.videoCapture = true
  setFormat : answers.setFormat ≠ none
  reqbufs : answers.reqbufs = some count
  mapped : capabilities.streaming = true →
    ∀ i < count, answers.querybuf i ≠ none ∧ answers.mmap i = true
  queued : capabilities.streaming = true → ∀ i < count, answers.qbuf i = true

theorem mapBuffers_succeeds (answers : Answers) (count i : Nat) (device : VideoDevice) :
    (∃ mapped, mapBuffers answers count i device = some mapped) ↔
      ∀ j, i ≤ j → j < i + count → answers.querybuf j ≠ none ∧ answers.mmap j = true := by
  induction count generalizing i device with
  | zero => exact ⟨fun _ j above below => by omega, fun _ => ⟨device, rfl⟩⟩
  | succ count ih =>
      unfold mapBuffers
      constructor
      · rintro ⟨mapped, done⟩ j above below
        cases queried : answers.querybuf i with
        | none =>
            rw [queried] at done
            cases done
        | some length =>
            rw [queried] at done
            obtain ⟨isMapped, done⟩ := Option.ite_none_right_eq_some.mp done
            rcases Nat.eq_or_lt_of_le above with rfl | later
            · exact ⟨by rw [queried]; exact Option.some_ne_none length, isMapped⟩
            · exact (ih (i + 1) _).mp ⟨mapped, done⟩ j later (by omega)
      · intro all
        obtain ⟨answered, isMapped⟩ := all i (Nat.le_refl i) (by omega)
        obtain ⟨length, queried⟩ := Option.ne_none_iff_exists'.mp answered
        rw [queried]
        dsimp only
        rw [if_pos isMapped]
        exact (ih (i + 1) _).mpr fun j above below => all j (by omega) (by omega)

/-- The driver has room for the buffers of the loop, and none of them is queued
when the loop starts. -/
theorem queueBuffers_succeeds (answers : Answers) (count i : Nat) (driver : Driver)
    (granted : i + count ≤ driver.granted) (fresh : ∀ j ∈ driver.queued, j < i) :
    (∃ after, queueBuffers answers count i driver = some after) ↔
      ∀ j, i ≤ j → j < i + count → answers.qbuf j = true := by
  induction count generalizing i driver with
  | zero => exact ⟨fun _ j above below => by omega, fun _ => ⟨driver, rfl⟩⟩
  | succ count ih =>
      have notQueued : i ∉ driver.queued := fun queued => Nat.lt_irrefl i (fresh i queued)
      have accepted : driver.qbuf (answers.qbuf i) i =
          if answers.qbuf i = true then
            some { driver with queued := driver.queued ++ [i] }
          else none := by
        unfold Driver.qbuf
        rw [decide_eq_true (show i < driver.granted by omega), decide_eq_true notQueued,
          Bool.and_true, Bool.and_true]
      have next := ih (i + 1) { driver with queued := driver.queued ++ [i] }
        (by dsimp only; omega) (fun j queued => by
          rcases List.mem_append.mp queued with before | isLast
          · exact Nat.lt_succ_of_lt (fresh j before)
          · rw [List.mem_singleton.mp isLast]
            exact Nat.lt_succ_self i)
      unfold queueBuffers
      rw [accepted]
      cases answer : answers.qbuf i with
      | false =>
          constructor
          · rintro ⟨after, done⟩
            cases done
          intro all
          have refused := all i (Nat.le_refl i) (by omega)
          rw [answer] at refused
          cases refused
      | true =>
          rw [if_pos rfl]
          refine next.trans ⟨fun rest j above below => ?_, fun all j above below =>
            all j (by omega) (by omega)⟩
          rcases Nat.eq_or_lt_of_le above with rfl | later
          · exact answer
          · exact rest j later (by omega)

/-! ### The whole initialisation -/

theorem mapBuffers_iPixelFormat {answers : Answers} {count i : Nat} {device mapped : VideoDevice}
    (done : mapBuffers answers count i device = some mapped) :
    mapped.iPixelFormat = device.iPixelFormat := by
  induction count generalizing i device with
  | zero =>
      cases done
      rfl
  | succ count ih =>
      unfold mapBuffers at done
      cases queried : answers.querybuf i with
      | none =>
          rw [queried] at done
          cases done
      | some length =>
          rw [queried] at done
          exact (ih (Option.ite_none_right_eq_some.mp done).2).trans rfl

theorem setUpBuffers_iPixelFormat {answers : Answers} {capabilities : Capabilities} {count : Nat}
    {device : VideoDevice} {table : VideoOpr} {result : Initialised}
    (isSetUp : setUpBuffers answers capabilities count device table = some result) :
    result.device.iPixelFormat = device.iPixelFormat := by
  unfold setUpBuffers at isSetUp
  dsimp only at isSetUp
  split at isSetUp
  · split at isSetUp
    · cases isSetUp
    · next mapped mapping =>
        split at isSetUp
        · cases isSetUp
        · cases isSetUp
          exact (mapBuffers_iPixelFormat mapping).trans rfl
  · split at isSetUp
    · cases isSetUp
      rfl
    · cases isSetUp
      rfl

theorem setUpBuffers_succeeds (answers : Answers) (capabilities : Capabilities) (count : Nat)
    (device : VideoDevice) (table : VideoOpr) :
    (∃ result, setUpBuffers answers capabilities count device table = some result) ↔
      (capabilities.streaming = true →
        (∀ i < count, answers.querybuf i ≠ none ∧ answers.mmap i = true) ∧
          ∀ i < count, answers.qbuf i = true) := by
  have mapping := mapBuffers_succeeds answers count 0 { device with iVideoBufCnt := count }
  have queueing := queueBuffers_succeeds answers count 0 { granted := count, queued := [] }
    (Nat.le_of_eq (Nat.zero_add count)) (fun j queued => nomatch queued)
  simp only [Nat.zero_add, Nat.zero_le, true_imp_iff] at mapping queueing
  unfold setUpBuffers
  dsimp only
  cases streaming : capabilities.streaming with
  | false =>
      rw [if_neg Bool.false_ne_true]
      refine ⟨fun _ isTrue => absurd isTrue Bool.false_ne_true, fun _ => ?_⟩
      split
      · exact ⟨_, rfl⟩
      · exact ⟨_, rfl⟩
  | true =>
      rw [if_pos rfl, ← mapping, ← queueing]
      constructor
      · rintro ⟨result, isSetUp⟩ _
        split at isSetUp
        · cases isSetUp
        · next mapped isMapped =>
            split at isSetUp
            · cases isSetUp
            · next driver isQueued => exact ⟨⟨mapped, isMapped⟩, driver, isQueued⟩
      · intro ready
        obtain ⟨⟨mapped, isMapped⟩, driver, isQueued⟩ := ready rfl
        rw [isMapped, isQueued]
        exact ⟨_, rfl⟩

/-- A successful initialisation got past every step, with the format it chose. -/
theorem v4l2InitDevice_chosen {answers : Answers} {device : VideoDevice} {table : VideoOpr}
    {result : Initialised} (initialised : v4l2InitDevice answers device table = some result) :
    chosenFormat answers device ≠ 0 ∧
      result.device.iPixelFormat = chosenFormat answers device ∧
      ∃ capabilities count, OtherStepsSucceed answers capabilities count := by
  obtain ⟨opened, capabilities, size, count, inner, isCap, capture, chosen, isFormat, isCount,
    isInner, isResult⟩ := v4l2InitDevice_some_iff.mp initialised
  have ready := (setUpBuffers_succeeds _ _ _ _ _).mp ⟨inner, isInner⟩
  refine ⟨chosen, ?_, capabilities, count, ?_⟩
  · rw [isResult]
    exact (setUpBuffers_iPixelFormat isInner).trans rfl
  · exact
      { opened := opened
        querycap := isCap
        videoCapture := capture
        setFormat := by
          rw [isFormat]
          exact Option.some_ne_none size
        reqbufs := isCount
        mapped := fun streaming => (ready streaming).1
        queued := fun streaming => (ready streaming).2 }

theorem v4l2InitDevice_succeeds {answers : Answers} {capabilities : Capabilities} {count : Nat}
    (steps : OtherStepsSucceed answers capabilities count) (device : VideoDevice)
    (table : VideoOpr) (chosen : chosenFormat answers device ≠ 0) :
    ∃ result, v4l2InitDevice answers device table = some result := by
  obtain ⟨size, isFormat⟩ := Option.ne_none_iff_exists'.mp steps.setFormat
  have ready := setUpBuffers_succeeds answers capabilities count (device.formatted answers size)
    table
  obtain ⟨inner, isInner⟩ := ready.mpr fun streaming =>
    ⟨steps.mapped streaming, steps.queued streaming⟩
  exact ⟨_, v4l2InitDevice_some_iff.mpr ⟨steps.opened, capabilities, size, count, inner,
    steps.querycap, steps.videoCapture, chosen, isFormat, steps.reqbufs, isInner, rfl⟩⟩

/-- The format is negotiated: a device that is set up uses the first listed
format that is supported, and without one it is not set up. -/
structure FormatNegotiated (answers : Answers) (device : VideoDevice) (table : VideoOpr) :
    Prop where
  found : ∀ result, v4l2InitDevice answers device table = some result →
    isSupportThisFormat result.device.iPixelFormat = true ∧
      ∃ before after, answers.formats = before ++ result.device.iPixelFormat :: after ∧
        ∀ format ∈ before, isSupportThisFormat format = false
  notFound : (∀ format ∈ answers.formats, isSupportThisFormat format = false) →
    v4l2InitDevice answers device table = none

theorem negotiated_of_supported {answers : Answers} (device : VideoDevice) (table : VideoOpr)
    (supported : ∃ format ∈ answers.formats, isSupportThisFormat format = true) :
    FormatNegotiated answers device table := by
  obtain ⟨format, isFound, isSupported⟩ := find_supported supported
  have chosen : chosenFormat answers device = format := by
    rw [chosenFormat, isFound, Option.getD_some]
  constructor
  · intro result initialised
    obtain ⟨_, isFormat, _⟩ := v4l2InitDevice_chosen initialised
    rw [isFormat, chosen]
    obtain ⟨_, before, after, split, unsupported⟩ := List.find?_eq_some_iff_append.mp isFound
    refine ⟨isSupported, before, after, split, fun format listed => ?_⟩
    exact Bool.not_eq_true' _ ▸ unsupported format listed
  · intro unsupported
    obtain ⟨listed, isListed, isTrue⟩ := supported
    rw [unsupported listed isListed] at isTrue
    cases isTrue

/-- Where every initialisation fails, none of them negotiates a wrong format. -/
theorem negotiated_of_failed {answers : Answers} {device : VideoDevice} {table : VideoOpr}
    (failed : ∀ result, v4l2InitDevice answers device table ≠ some result) :
    FormatNegotiated answers device table where
  found result initialised := absurd initialised (failed result)
  notFound _ := Option.eq_none_iff_forall_ne_some.mpr failed

/-- The format is negotiated exactly where the device lists a supported one, the
caller's field held zero, or another step fails. -/
theorem formats_negotiated_iff (answers : Answers) (device : VideoDevice) (table : VideoOpr) :
    FormatNegotiated answers device table ↔
      (∃ format ∈ answers.formats, isSupportThisFormat format = true) ∨
        device.iPixelFormat = 0 ∨
        ¬∃ capabilities count, OtherStepsSucceed answers capabilities count := by
  by_cases supported : ∃ format ∈ answers.formats, isSupportThisFormat format = true
  · exact ⟨fun _ => Or.inl supported, fun _ => negotiated_of_supported device table supported⟩
  have chosen := chosenFormat_of_unsupported device supported
  constructor
  · intro negotiated
    refine Or.inr (or_iff_not_imp_left.mpr fun nonzero ⟨capabilities, count, steps⟩ => ?_)
    obtain ⟨result, initialised⟩ :=
      v4l2InitDevice_succeeds steps device table (chosen.trans_ne nonzero)
    obtain ⟨isSupported, before, after, split, _⟩ := negotiated.found result initialised
    exact supported ⟨_, split ▸ List.mem_append_right before List.mem_cons_self, isSupported⟩
  · rintro (found | zero | stopped)
    · exact absurd found supported
    · refine negotiated_of_failed fun result initialised => ?_
      exact (v4l2InitDevice_chosen initialised).1 (chosen.trans zero)
    · refine negotiated_of_failed fun result initialised => ?_
      exact stopped (v4l2InitDevice_chosen initialised).2.2

/-- A structure on the stack that still holds some earlier word. -/
def dirtyDevice : VideoDevice := { blankDevice with iPixelFormat := 0x7ffd1234 }

/-- A camera for H.264 only is set up with the word that was on the stack. -/
theorem stack_word_accepted :
    (v4l2InitDevice { camera true false with formats := [0x34363248] } dirtyDevice
      tV4l2VideoOpr).map (fun result => result.device.iPixelFormat) = some 0x7ffd1234 ∧
    ¬FormatNegotiated { camera true false with formats := [0x34363248] } dirtyDevice
      tV4l2VideoOpr := by
  refine ⟨rfl, fun negotiated => ?_⟩
  have refused := negotiated.notFound (by decide)
  cases refused

end BuildLinux.Concrete.V4l2Formats
