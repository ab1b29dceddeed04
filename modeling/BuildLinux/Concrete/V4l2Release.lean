/-
What V4l2InitDevice of driver/v4l2/video2lcd/video/v4l2.c acquires, and what its
error label and V4l2ExitDevice release.

The error label only closes the descriptor.  The exit unmaps every cell that is
not NULL with one length, the last one that the initialisation stored, also when
the cell was allocated.  size_t has the width of int on the target, so lengths
pass through iVideoBufMaxLen unchanged.
-/

import BuildLinux.ResourceLedger
import BuildLinux.Concrete.V4l2Formats

namespace BuildLinux.Concrete.V4l2Release

open ResourceLedger V4l2Device V4l2Formats

/-- A mapping is what `munmap` is asked to release: an address with a length. -/
inductive Resource where
  | descriptor
  | mapping (block : Pointer) (length : Nat)
  | allocation (block : Pointer)
  deriving DecidableEq, Repr

structure Logged (outcome : Type) where
  outcome : Option outcome
  acquired : List Resource

/-! ### The initialisation with what it acquires -/

def mapBuffersLogged (answers : Answers) : Nat → Nat → VideoDevice → Logged VideoDevice
  | 0, _, device => ⟨some device, []⟩
  | count + 1, i, device =>
      match answers.querybuf i with
      | none => ⟨none, []⟩
      | some length =>
          if answers.mmap i then
            let rest := mapBuffersLogged answers count (i + 1)
              { device with
                iVideoBufMaxLen := length
                pucVideBuf := Function.update device.pucVideBuf i (.mapped i) }
            ⟨rest.outcome, .mapping (.mapped i) length :: rest.acquired⟩
          else ⟨none, []⟩

/-- `malloc` acquires nothing where it returns NULL. -/
def mallocLogged (block : Pointer) : List Resource :=
  if block = .null then [] else [.allocation block]

def setUpBuffersLogged (answers : Answers) (capabilities : Capabilities) (count : Nat)
    (device : VideoDevice) (table : VideoOpr) : Logged Initialised :=
  let requested : VideoDevice := { device with iVideoBufCnt := count }
  let idle : Driver := { granted := count, queued := [] }
  if capabilities.streaming then
    let mapping := mapBuffersLogged answers count 0 requested
    match mapping.outcome with
    | none => ⟨none, mapping.acquired⟩
    | some mapped =>
        match queueBuffers answers count 0 idle with
        | none => ⟨none, mapping.acquired⟩
        | some driver => ⟨some ⟨mapped, driver, table⟩, mapping.acquired⟩
  else if capabilities.readWrite then
    ⟨some
      { device :=
          { requested with
            iVideoBufCnt := 1
            iVideoBufMaxLen := requested.iWidth * requested.iHeight * 4
            pucVideBuf := Function.update requested.pucVideBuf 0 answers.malloc }
        driver := idle
        table := { GetFrame := .readWrite, PutFrame := .readWrite } },
      mallocLogged answers.malloc⟩
  else ⟨some ⟨requested, idle, table⟩, []⟩

/-- The initialisation once the device is open. -/
def initOpenedLogged (answers : Answers) (device : VideoDevice) (table : VideoOpr) :
    Logged Initialised :=
  match answers.querycap with
  | none => ⟨none, []⟩
  | some capabilities =>
      if !capabilities.videoCapture then ⟨none, []⟩
      else if chosenFormat answers device = 0 then ⟨none, []⟩
      else
        match answers.setFormat with
        | none => ⟨none, []⟩
        | some size =>
            match answers.reqbufs with
            | none => ⟨none, []⟩
            | some count =>
                let set := setUpBuffersLogged answers capabilities count
                  (device.formatted answers size) table
                ⟨set.outcome.map fun result =>
                    { result with device := result.device.withOperations },
                  set.acquired⟩

/-- What `V4l2InitDevice` returns, and its whole ledger; `err_exit` closes the descriptor. -/
structure InitRun where
  outcome : Option Initialised
  ledger : List (Operation Resource)

def v4l2InitDeviceRun (answers : Answers) (device : VideoDevice) (table : VideoOpr) : InitRun :=
  if !answers.opened then ⟨none, []⟩
  else
    let opened := initOpenedLogged answers device table
    match opened.outcome with
    | none => ⟨none, acquireThenRelease (.descriptor :: opened.acquired) [.descriptor]⟩
    | some result => ⟨some result, acquireThenRelease (.descriptor :: opened.acquired) []⟩

/-! ### The exit -/

/-- The loop over `count` cells from `i` on. -/
def exitBuffers : Nat → Nat → VideoDevice → VideoDevice × List Resource
  | 0, _, device => (device, [])
  | count + 1, i, device =>
      if device.pucVideBuf i = .null then exitBuffers count (i + 1) device
      else
        let rest := exitBuffers count (i + 1)
          { device with pucVideBuf := Function.update device.pucVideBuf i .null }
        (rest.1, .mapping (device.pucVideBuf i) device.iVideoBufMaxLen :: rest.2)

def v4l2ExitDevice (device : VideoDevice) : VideoDevice × List (Operation Resource) :=
  let left := exitBuffers device.iVideoBufCnt 0 device
  (left.1, acquireThenRelease [] (left.2 ++ [.descriptor]))

/-- What the exit unmaps for a cell that holds `block`. -/
def unmapBlock (length : Nat) (block : Pointer) : Option Resource :=
  if block = .null then none else some (.mapping block length)

theorem exitBuffers_released (count i : Nat) (device : VideoDevice) :
    (exitBuffers count i device).2 =
      (List.range' i count).filterMap fun cell =>
        unmapBlock device.iVideoBufMaxLen (device.pucVideBuf cell) := by
  induction count generalizing i device with
  | zero => rfl
  | succ count ih =>
      unfold exitBuffers
      rw [List.range'_succ, List.filterMap_cons]
      by_cases isNull : device.pucVideBuf i = .null
      · rw [if_pos isNull, ih, unmapBlock, if_pos isNull]
      · rw [if_neg isNull, unmapBlock, if_neg isNull]
        dsimp only
        rw [ih]
        refine congrArg _ (List.filterMap_congr fun cell member => ?_)
        have later : cell ≠ i := by
          have above := (List.mem_range'_1.mp member).1
          omega
        exact congrArg _ (Function.update_of_ne later _ _)

/-! ### The logged initialisation is the initialisation -/

theorem mapBuffersLogged_outcome (answers : Answers) (count i : Nat) (device : VideoDevice) :
    (mapBuffersLogged answers count i device).outcome = mapBuffers answers count i device := by
  induction count generalizing i device with
  | zero => rfl
  | succ count ih =>
      unfold mapBuffersLogged mapBuffers
      cases answers.querybuf i with
      | none => rfl
      | some length =>
          dsimp only
          split
          · exact ih (i + 1) _
          · rfl

theorem setUpBuffersLogged_outcome (answers : Answers) (capabilities : Capabilities) (count : Nat)
    (device : VideoDevice) (table : VideoOpr) :
    (setUpBuffersLogged answers capabilities count device table).outcome =
      setUpBuffers answers capabilities count device table := by
  unfold setUpBuffersLogged setUpBuffers
  dsimp only
  split
  · rw [mapBuffersLogged_outcome]
    cases mapBuffers answers count 0 { device with iVideoBufCnt := count } with
    | none => rfl
    | some mapped =>
        dsimp only
        cases queueBuffers answers count 0 { granted := count, queued := [] } <;> rfl
  · split <;> rfl

theorem v4l2InitDeviceRun_outcome (answers : Answers) (device : VideoDevice) (table : VideoOpr) :
    (v4l2InitDeviceRun answers device table).outcome = v4l2InitDevice answers device table := by
  have inner : ∀ opened : Logged Initialised,
      (match opened.outcome with
        | none => (⟨none, acquireThenRelease (.descriptor :: opened.acquired) [.descriptor]⟩ :
            InitRun)
        | some result =>
            ⟨some result, acquireThenRelease (.descriptor :: opened.acquired) []⟩).outcome =
        opened.outcome := by
    rintro ⟨outcome, acquired⟩
    cases outcome <;> rfl
  unfold v4l2InitDeviceRun v4l2InitDevice
  split
  · rfl
  · dsimp only
    rw [inner, initOpenedLogged]
    cases answers.querycap with
    | none => rfl
    | some capabilities =>
        dsimp only
        split
        · rfl
        · split
          · rfl
          · cases answers.setFormat with
            | none => rfl
            | some size =>
                cases answers.reqbufs with
                | none => rfl
                | some count =>
                    dsimp only
                    rw [setUpBuffersLogged_outcome]
                    rfl

/-! ### What the mapping loop acquires -/

theorem mapBuffersLogged_descriptor (answers : Answers) (count i : Nat) (device : VideoDevice) :
    Resource.descriptor ∉ (mapBuffersLogged answers count i device).acquired := by
  induction count generalizing i device with
  | zero => exact List.not_mem_nil
  | succ count ih =>
      unfold mapBuffersLogged
      cases answers.querybuf i with
      | none => exact List.not_mem_nil
      | some length =>
          dsimp only
          split
          · intro member
            rcases List.mem_cons.mp member with impossible | later
            · cases impossible
            · exact ih (i + 1) _ later
          · exact List.not_mem_nil

/-- The loop maps nothing exactly where it stops at its first buffer. -/
theorem mapBuffersLogged_nil_iff (answers : Answers) (count i : Nat) (device : VideoDevice) :
    (mapBuffersLogged answers count i device).acquired = [] ↔
      (0 < count → answers.querybuf i = none ∨ answers.mmap i = false) := by
  cases count with
  | zero => exact ⟨fun _ impossible => absurd impossible (Nat.lt_irrefl 0), fun _ => rfl⟩
  | succ count =>
      unfold mapBuffersLogged
      cases queried : answers.querybuf i with
      | none => exact ⟨fun _ _ => Or.inl rfl, fun _ => rfl⟩
      | some length =>
          dsimp only
          cases mapped : answers.mmap i with
          | false => exact ⟨fun _ _ => Or.inr rfl, fun _ => rfl⟩
          | true =>
              refine ⟨fun impossible => (nomatch impossible), fun fails => ?_⟩
              rcases fails (Nat.succ_pos count) with impossible | impossible <;> cases impossible

theorem mapBuffersLogged_of_mapped {answers : Answers} {count i : Nat}
    {device mapped : VideoDevice} (done : mapBuffers answers count i device = some mapped) :
    (mapBuffersLogged answers count i device).acquired =
      (List.range' i count).map fun j =>
        .mapping (.mapped j) ((answers.querybuf j).getD 0) := by
  induction count generalizing i device with
  | zero => rfl
  | succ count ih =>
      unfold mapBuffers at done
      unfold mapBuffersLogged
      cases queried : answers.querybuf i with
      | none =>
          rw [queried] at done
          cases done
      | some length =>
          rw [queried] at done
          obtain ⟨isMapped, done⟩ := Option.ite_none_right_eq_some.mp done
          dsimp only
          rw [if_pos isMapped, List.range'_succ, List.map_cons, queried]
          dsimp only
          rw [ih done]
          rfl

/-- The loop leaves the length of its last buffer. -/
theorem mapBuffers_fields {answers : Answers} {count i : Nat} {device mapped : VideoDevice}
    (done : mapBuffers answers count i device = some mapped) :
    mapped.iVideoBufCnt = device.iVideoBufCnt ∧
      (0 < count → answers.querybuf (i + (count - 1)) = some mapped.iVideoBufMaxLen) := by
  induction count generalizing i device with
  | zero =>
      cases done
      exact ⟨rfl, fun impossible => absurd impossible (Nat.lt_irrefl 0)⟩
  | succ count ih =>
      unfold mapBuffers at done
      cases queried : answers.querybuf i with
      | none =>
          rw [queried] at done
          cases done
      | some length =>
          rw [queried] at done
          obtain ⟨_, done⟩ := Option.ite_none_right_eq_some.mp done
          obtain ⟨sameCount, lastLength⟩ := ih done
          refine ⟨sameCount, fun _ => ?_⟩
          cases count with
          | zero =>
              cases done
              exact queried
          | succ count =>
              have last := lastLength (Nat.succ_pos count)
              have sameIndex : i + 1 + (count + 1 - 1) = i + (count + 1 + 1 - 1) := by omega
              rw [sameIndex] at last
              exact last

/-! ### The buffers behind VIDIOC_REQBUFS -/

/-- The initialisation gets to its buffers: everything before them succeeds. -/
structure ReachesBuffers (answers : Answers) (device : VideoDevice) (capabilities : Capabilities)
    (count : Nat) : Prop where
  opened : answers.opened = true
  querycap : answers.querycap = some capabilities
  videoCapture : capabilities.videoCapture = true
  format : (∃ format ∈ answers.formats, isSupportThisFormat format = true) ∨
    device.iPixelFormat ≠ 0
  setFormat : answers.setFormat ≠ none
  reqbufs : answers.reqbufs = some count

theorem supported_ne_zero {format : Nat} (supported : isSupportThisFormat format = true) :
    format ≠ 0 := by
  intro isZero
  rw [isZero] at supported
  cases supported

theorem chosenFormat_ne_zero_iff (answers : Answers) (device : VideoDevice) :
    chosenFormat answers device ≠ 0 ↔
      (∃ format ∈ answers.formats, isSupportThisFormat format = true) ∨
        device.iPixelFormat ≠ 0 := by
  by_cases supported : ∃ format ∈ answers.formats, isSupportThisFormat format = true
  · obtain ⟨format, found, isSupported⟩ := find_supported supported
    rw [chosenFormat, found, Option.getD_some]
    exact ⟨fun _ => Or.inl supported, fun _ => supported_ne_zero isSupported⟩
  · rw [chosenFormat_of_unsupported device supported]
    exact ⟨Or.inr, fun either => either.resolve_left supported⟩

theorem initOpenedLogged_reached {answers : Answers} {device : VideoDevice}
    {capabilities : Capabilities} {count : Nat}
    (reached : ReachesBuffers answers device capabilities count) (table : VideoOpr) :
    ∃ size, initOpenedLogged answers device table =
      ⟨(setUpBuffersLogged answers capabilities count (device.formatted answers size)
          table).outcome.map fun result => { result with device := result.device.withOperations },
        (setUpBuffersLogged answers capabilities count (device.formatted answers size)
          table).acquired⟩ := by
  obtain ⟨size, isSize⟩ := Option.ne_none_iff_exists'.mp reached.setFormat
  have capture : ¬(!capabilities.videoCapture) = true := by
    rw [reached.videoCapture]
    decide
  have chosen := (chosenFormat_ne_zero_iff answers device).mpr reached.format
  refine ⟨size, ?_⟩
  unfold initOpenedLogged
  rw [reached.querycap]
  dsimp only
  rw [if_neg capture, if_neg chosen, isSize, reached.reqbufs]

theorem initOpenedLogged_stopped {answers : Answers} {device : VideoDevice}
    (opened : answers.opened = true)
    (stopped : ∀ capabilities count, ¬ReachesBuffers answers device capabilities count)
    (table : VideoOpr) : initOpenedLogged answers device table = ⟨none, []⟩ := by
  unfold initOpenedLogged
  cases isCap : answers.querycap with
  | none => rfl
  | some capabilities =>
      dsimp only
      split
      · rfl
      next capture =>
          split
          · rfl
          next chosen =>
              cases isSize : answers.setFormat with
              | none => rfl
              | some size =>
                  cases isCount : answers.reqbufs with
                  | none => rfl
                  | some count =>
                      refine absurd ?_ (stopped capabilities count)
                      exact ⟨opened, isCap, by simpa using capture,
                        (chosenFormat_ne_zero_iff answers device).mp chosen,
                        by rw [isSize]; exact Option.some_ne_none size, isCount⟩

/-! ### What is released -/

/-- What is acquired is released, also when the initialisation fails. -/
structure ReleasesBuffers (answers : Answers) (device : VideoDevice) (table : VideoOpr) :
    Prop where
  onFailure : (v4l2InitDeviceRun answers device table).outcome = none →
    Balanced (v4l2InitDeviceRun answers device table).ledger
  onExit : ∀ result, (v4l2InitDeviceRun answers device table).outcome = some result →
    Balanced ((v4l2InitDeviceRun answers device table).ledger ++
      (v4l2ExitDevice result.device).2)

/-- What the exit of a device unmaps. -/
def exitUnmaps (device : VideoDevice) : List Resource :=
  (List.range' 0 device.iVideoBufCnt).filterMap fun cell =>
    unmapBlock device.iVideoBufMaxLen (device.pucVideBuf cell)

theorem exitUnmaps_descriptor (device : VideoDevice) :
    Resource.descriptor ∉ exitUnmaps device := by
  intro member
  obtain ⟨cell, _, isDescriptor⟩ := List.mem_filterMap.mp member
  unfold unmapBlock at isDescriptor
  split at isDescriptor <;> cases isDescriptor

/-- A set up that fails has acquired nothing, and one that succeeds is balanced by the exit. -/
structure SetUpReleases (set : Logged Initialised) : Prop where
  nothing : set.outcome = none → set.acquired = []
  balanced : ∀ result, set.outcome = some result →
    Balanced (acquireThenRelease set.acquired (exitUnmaps result.device.withOperations))

/-- With the descriptor apart, the buffers of the set up are what has to be balanced. -/
theorem releases_iff_setUp {answers : Answers} {device : VideoDevice} {table : VideoOpr}
    {set : Logged Initialised} (opened : answers.opened = true)
    (isSet : initOpenedLogged answers device table =
      ⟨set.outcome.map fun result => { result with device := result.device.withOperations },
        set.acquired⟩)
    (noDescriptor : Resource.descriptor ∉ set.acquired) :
    ReleasesBuffers answers device table ↔ SetUpReleases set := by
  have notClosed : ¬(!answers.opened) = true := by
    rw [opened]
    decide
  obtain ⟨outcome, acquired⟩ := set
  dsimp only at isSet noDescriptor
  cases outcome with
  | none =>
      have run : v4l2InitDeviceRun answers device table =
          ⟨none, acquireThenRelease (.descriptor :: acquired) [.descriptor]⟩ := by
        unfold v4l2InitDeviceRun
        rw [if_neg notClosed, isSet]
        rfl
      have balanced : Balanced (acquireThenRelease (.descriptor :: acquired) [.descriptor]) ↔
          acquired = [] := by
        rw [← @balanced_unreleased _ _ acquired]
        exact balanced_around noDescriptor List.not_mem_nil
      constructor
      · intro releases
        refine ⟨fun _ => balanced.mp ?_, fun _ impossible => (nomatch impossible)⟩
        have onFailure := releases.onFailure
        rw [run] at onFailure
        exact onFailure rfl
      · rintro ⟨nothing, _⟩
        constructor
        · rw [run]
          exact fun _ => balanced.mpr (nothing rfl)
        · rw [run]
          exact fun _ impossible => (nomatch impossible)
  | some result =>
      have run : v4l2InitDeviceRun answers device table =
          ⟨some { result with device := result.device.withOperations },
            acquireThenRelease (.descriptor :: acquired) []⟩ := by
        unfold v4l2InitDeviceRun
        rw [if_neg notClosed, isSet]
        rfl
      have exits : (v4l2ExitDevice result.device.withOperations).2 =
          acquireThenRelease [] (exitUnmaps result.device.withOperations ++ [.descriptor]) := by
        unfold v4l2ExitDevice
        dsimp only
        rw [exitBuffers_released]
        rfl
      have balanced : Balanced (acquireThenRelease (.descriptor :: acquired) [] ++
            (v4l2ExitDevice result.device.withOperations).2) ↔
          Balanced (acquireThenRelease acquired (exitUnmaps result.device.withOperations)) := by
        rw [exits, acquireThenRelease_append]
        exact balanced_around noDescriptor (exitUnmaps_descriptor _)
      constructor
      · intro releases
        refine ⟨fun impossible => (nomatch impossible), fun other same => ?_⟩
        cases same
        have onExit := releases.onExit
        rw [run] at onExit
        exact balanced.mp (onExit _ rfl)
      · rintro ⟨_, onExit⟩
        constructor
        · rw [run]
          exact fun impossible => (nomatch impossible)
        · rw [run]
          intro other same
          cases same
          exact balanced.mpr (onExit result rfl)

/-! ### The three ways to set up -/

/-- Every buffer is mapped and queued. -/
def BuffersSucceed (answers : Answers) (count : Nat) : Prop :=
  (∀ i < count, answers.querybuf i ≠ none ∧ answers.mmap i = true) ∧
    ∀ i < count, answers.qbuf i = true

/-- The first buffer cannot be mapped. -/
def FirstBufferFails (answers : Answers) (count : Nat) : Prop :=
  0 < count ∧ (answers.querybuf 0 = none ∨ answers.mmap 0 = false)

/-- The buffers have the length of the last one. -/
def OneLength (answers : Answers) (count : Nat) : Prop :=
  ∀ i < count, answers.querybuf i = answers.querybuf (count - 1)

def mappings (count : Nat) (length : Nat → Nat) : List Resource :=
  (List.range' 0 count).map fun cell => .mapping (.mapped cell) (length cell)

theorem mappings_nodup (count : Nat) (length : Nat → Nat) : (mappings count length).Nodup := by
  refine List.Nodup.map (fun left right same => ?_) List.nodup_range'
  injection same with sameBlock
  injection sameBlock

theorem mapping_mem {count : Nat} {length : Nat → Nat} {block : Pointer} {held : Nat} :
    Resource.mapping block held ∈ mappings count length ↔
      ∃ cell < count, block = .mapped cell ∧ held = length cell := by
  unfold mappings
  rw [List.mem_map]
  constructor
  · rintro ⟨cell, member, same⟩
    injection same with sameBlock sameLength
    have below := (List.mem_range'_1.mp member).2
    exact ⟨cell, by omega, sameBlock.symm, sameLength.symm⟩
  · rintro ⟨cell, below, rfl, rfl⟩
    exact ⟨cell, List.mem_range'_1.mpr ⟨Nat.zero_le cell, by omega⟩, rfl⟩

/-- Mappings that are all released with one length balance where they have it. -/
theorem mappings_balanced_iff (count : Nat) (length : Nat → Nat) (last : Nat) :
    Balanced (acquireThenRelease (mappings count length) (mappings count fun _ => last)) ↔
      ∀ cell < count, length cell = last := by
  constructor
  · intro balanced cell below
    have member : Resource.mapping (.mapped cell) (length cell) ∈ mappings count length :=
      mapping_mem.mpr ⟨cell, below, rfl, rfl⟩
    have once := (balanced_iff.mp balanced).1 _ member
    have released : Resource.mapping (.mapped cell) (length cell) ∈
        mappings count fun _ => last := by
      rw [← List.count_pos_iff, once]
      exact Nat.one_pos
    obtain ⟨_, _, _, sameLength⟩ := mapping_mem.mp released
    exact sameLength
  · intro one
    have same : (mappings count fun _ => last) = mappings count length := by
      unfold mappings
      refine List.map_congr_left fun cell member => ?_
      rw [one cell (by have below := (List.mem_range'_1.mp member).2; omega)]
    rw [same]
    exact balanced_of_perm (mappings_nodup count length) (List.Perm.refl _)

/-- What the exit unmaps of a device whose cells are the mapped ones. -/
theorem exitUnmaps_mapped {device : VideoDevice} (small : device.iVideoBufCnt ≤ nbBuffer)
    (cells : ∀ cell < device.iVideoBufCnt, device.pucVideBuf cell = .mapped cell) :
    exitUnmaps device.withOperations =
      mappings device.iVideoBufCnt fun _ => device.iVideoBufMaxLen := by
  unfold exitUnmaps mappings
  rw [← List.filterMap_eq_map]
  refine List.filterMap_congr fun cell member => ?_
  have below := (List.mem_range'_1.mp member).2
  change cell < 0 + device.iVideoBufCnt at below
  have isMapped : device.withOperations.pucVideBuf cell = .mapped cell :=
    (Function.update_of_ne (by omega) _ _).trans (cells cell (by omega))
  rw [isMapped]
  rfl

/-- With more buffers than cells, the exit unmaps the operations table. -/
theorem exitUnmaps_operations {device : VideoDevice} (large : nbBuffer < device.iVideoBufCnt) :
    Resource.mapping .operations device.iVideoBufMaxLen ∈ exitUnmaps device.withOperations := by
  refine List.mem_filterMap.mpr ⟨nbBuffer, List.mem_range'_1.mpr ⟨Nat.zero_le _, ?_⟩, ?_⟩
  · change nbBuffer < 0 + device.iVideoBufCnt
    omega
  · have isOperations : device.withOperations.pucVideBuf nbBuffer = .operations :=
      withOperations_ptOPr device
    rw [isOperations]
    rfl

theorem oneLength_iff {answers : Answers} {count last : Nat}
    (answered : ∀ i < count, answers.querybuf i ≠ none)
    (isLast : 0 < count → answers.querybuf (count - 1) = some last) :
    (∀ cell < count, (answers.querybuf cell).getD 0 = last) ↔ OneLength answers count := by
  constructor
  · intro one i below
    obtain ⟨length, queried⟩ := Option.ne_none_iff_exists'.mp (answered i below)
    have same := one i below
    rw [queried, Option.getD_some] at same
    rw [queried, isLast (by omega), same]
  · intro one i below
    rw [one i below, isLast (by omega), Option.getD_some]

section SetUp

variable {answers : Answers} {capabilities : Capabilities} {count : Nat} {device : VideoDevice}
  {table : VideoOpr}

theorem streaming_setUp (streaming : capabilities.streaming = true) :
    (setUpBuffersLogged answers capabilities count device table).acquired =
      (mapBuffersLogged answers count 0 { device with iVideoBufCnt := count }).acquired := by
  unfold setUpBuffersLogged
  dsimp only
  rw [if_pos streaming]
  split
  · rfl
  · split <;> rfl

theorem streaming_succeeds_iff (streaming : capabilities.streaming = true) :
    (setUpBuffersLogged answers capabilities count device table).outcome = none ↔
      ¬BuffersSucceed answers count := by
  have succeeds := setUpBuffers_succeeds answers capabilities count device table
  rw [setUpBuffersLogged_outcome, Option.eq_none_iff_forall_ne_some, BuffersSucceed]
  rw [← not_exists, succeeds]
  exact not_congr ⟨fun ready => ready streaming, fun ready _ => ready⟩

/-- A streaming set up with buffers leaves what its mapping loop leaves. -/
theorem streaming_result {result : Initialised} (streaming : capabilities.streaming = true)
    (isSetUp : (setUpBuffersLogged answers capabilities count device table).outcome =
      some result) :
    mapBuffers answers count 0 { device with iVideoBufCnt := count } = some result.device := by
  rw [setUpBuffersLogged_outcome] at isSetUp
  unfold setUpBuffers at isSetUp
  rw [if_pos streaming] at isSetUp
  split at isSetUp
  · cases isSetUp
  next mapped isMapped =>
      split at isSetUp
      · cases isSetUp
      · cases isSetUp
        exact isMapped

theorem streaming_balanced {result : Initialised} (streaming : capabilities.streaming = true)
    (isSetUp : (setUpBuffersLogged answers capabilities count device table).outcome =
      some result) :
    Balanced (acquireThenRelease
        (setUpBuffersLogged answers capabilities count device table).acquired
        (exitUnmaps result.device.withOperations)) ↔
      count ≤ nbBuffer ∧ OneLength answers count := by
  have mapped := streaming_result streaming isSetUp
  obtain ⟨sameCount, lastLength⟩ := mapBuffers_fields mapped
  change result.device.iVideoBufCnt = count at sameCount
  rw [Nat.zero_add] at lastLength
  have cells : ∀ cell < result.device.iVideoBufCnt,
      result.device.pucVideBuf cell = .mapped cell := by
    intro cell below
    rw [mapBuffers_cells mapped cell, if_pos (by omega)]
  have answered : ∀ i < count, answers.querybuf i ≠ none := by
    intro i below
    have all := (mapBuffers_succeeds answers count 0 _).mp ⟨_, mapped⟩
    exact (all i (Nat.zero_le i) (by omega)).1
  have acquired : (setUpBuffersLogged answers capabilities count device table).acquired =
      mappings count fun cell => (answers.querybuf cell).getD 0 := by
    rw [streaming_setUp streaming, mapBuffersLogged_of_mapped mapped]
    rfl
  rw [acquired]
  by_cases small : count ≤ nbBuffer
  · rw [exitUnmaps_mapped (by omega) cells, sameCount, mappings_balanced_iff,
      oneLength_iff answered lastLength]
    exact ⟨fun one => ⟨small, one⟩, fun both => both.2⟩
  · refine ⟨fun balanced => ?_, fun both => absurd both.1 small⟩
    have unmapped := @exitUnmaps_operations result.device (by omega)
    obtain ⟨_, _, impossible, _⟩ :=
      mapping_mem.mp ((balanced_iff.mp balanced).2 _ unmapped)
    cases impossible

theorem streaming_nothing_iff (streaming : capabilities.streaming = true) :
    (setUpBuffersLogged answers capabilities count device table).acquired = [] ↔
      (0 < count → answers.querybuf 0 = none ∨ answers.mmap 0 = false) := by
  rw [streaming_setUp streaming, mapBuffersLogged_nil_iff]

theorem streaming_iff (streaming : capabilities.streaming = true) :
    SetUpReleases (setUpBuffersLogged answers capabilities count device table) ↔
      FirstBufferFails answers count ∨
        (BuffersSucceed answers count ∧ count ≤ nbBuffer ∧ OneLength answers count) := by
  by_cases succeeds : BuffersSucceed answers count
  · have someOutcome :
        (setUpBuffersLogged answers capabilities count device table).outcome ≠ none :=
      fun failed => (streaming_succeeds_iff streaming).mp failed succeeds
    obtain ⟨result, isSetUp⟩ := Option.ne_none_iff_exists'.mp someOutcome
    have notFirst : ¬FirstBufferFails answers count := by
      rintro ⟨positive, unanswered | unmapped⟩
      · exact (succeeds.1 0 positive).1 unanswered
      · rw [(succeeds.1 0 positive).2] at unmapped
        cases unmapped
    constructor
    · rintro ⟨_, balanced⟩
      exact Or.inr ⟨succeeds, (streaming_balanced streaming isSetUp).mp (balanced result isSetUp)⟩
    · rintro (first | ⟨_, fits⟩)
      · exact absurd first notFirst
      · exact ⟨fun failed => absurd failed someOutcome,
          fun other isOther => (streaming_balanced streaming isOther).mpr fits⟩
  · have noOutcome : (setUpBuffersLogged answers capabilities count device table).outcome = none :=
      (streaming_succeeds_iff streaming).mpr succeeds
    constructor
    · rintro ⟨nothing, _⟩
      have positive : 0 < count := by
        by_contra isZero
        refine succeeds ⟨fun i below => ?_, fun i below => ?_⟩ <;> omega
      exact Or.inl ⟨positive, (streaming_nothing_iff streaming).mp (nothing noOutcome) positive⟩
    · rintro (first | ⟨impossible, _⟩)
      · refine ⟨fun _ => (streaming_nothing_iff streaming).mpr fun _ => first.2,
          fun result isSetUp => ?_⟩
        rw [noOutcome] at isSetUp
        cases isSetUp
      · exact absurd impossible succeeds

/-- The allocated buffer is unmapped and never freed. -/
theorem readWrite_iff (notStreaming : ¬capabilities.streaming = true)
    (readWrite : capabilities.readWrite = true) :
    SetUpReleases (setUpBuffersLogged answers capabilities count device table) ↔
      answers.malloc = .null := by
  have set : setUpBuffersLogged answers capabilities count device table =
      ⟨some
        { device :=
            { device with
              iVideoBufCnt := 1
              iVideoBufMaxLen := device.iWidth * device.iHeight * 4
              pucVideBuf := Function.update device.pucVideBuf 0 answers.malloc }
          driver := { granted := count, queued := [] }
          table := { GetFrame := .readWrite, PutFrame := .readWrite } },
        mallocLogged answers.malloc⟩ := by
    unfold setUpBuffersLogged
    rw [if_neg notStreaming, if_pos readWrite]
  rw [set]
  refine ⟨fun both => ?_, fun isNull => ?_⟩
  · by_contra allocated
    have known := (balanced_iff.mp (both.balanced _ rfl)).2
      (.mapping answers.malloc (device.iWidth * device.iHeight * 4))
      (List.mem_filterMap.mpr ⟨0, List.mem_range'_1.mpr ⟨Nat.le_refl 0, Nat.one_pos⟩,
        if_neg allocated⟩)
    change _ ∈ mallocLogged answers.malloc at known
    rw [mallocLogged, if_neg allocated] at known
    cases List.mem_singleton.mp known
  · refine ⟨fun impossible => (nomatch impossible), fun result same => ?_⟩
    cases same
    have nothing : mallocLogged answers.malloc = [] := if_pos isNull
    dsimp only
    rw [nothing]
    refine balanced_iff.mpr ⟨fun _ member => (nomatch member), fun item member => ?_⟩
    obtain ⟨cell, inRange, isItem⟩ := List.mem_filterMap.mp member
    have isFirst : cell = 0 := by
      have below := (List.mem_range'_1.mp inRange).2
      change cell < 0 + 1 at below
      omega
    rw [isFirst] at isItem
    change unmapBlock _ answers.malloc = some item at isItem
    rw [unmapBlock, if_pos isNull] at isItem
    cases isItem

/-- Without either method the exit unmaps what the caller's cells held. -/
theorem neither_iff (notStreaming : ¬capabilities.streaming = true)
    (notReadWrite : ¬capabilities.readWrite = true) :
    SetUpReleases (setUpBuffersLogged answers capabilities count device table) ↔
      count ≤ nbBuffer ∧ ∀ i < count, device.pucVideBuf i = .null := by
  have set : setUpBuffersLogged answers capabilities count device table =
      ⟨some ⟨{ device with iVideoBufCnt := count }, { granted := count, queued := [] }, table⟩,
        []⟩ := by
    unfold setUpBuffersLogged
    rw [if_neg notStreaming, if_neg notReadWrite]
  rw [set]
  constructor
  · rintro ⟨_, balanced⟩
    have nothing : ∀ item, item ∉ exitUnmaps
        (VideoDevice.withOperations { device with iVideoBufCnt := count }) :=
      fun item member => nomatch (balanced_iff.mp (balanced _ rfl)).2 item member
    have small : count ≤ nbBuffer := by
      by_contra large
      exact nothing _
        (@exitUnmaps_operations { device with iVideoBufCnt := count } (Nat.not_le.mp large))
    refine ⟨small, fun i below => ?_⟩
    by_contra occupied
    have kept : (VideoDevice.withOperations { device with iVideoBufCnt := count }).pucVideBuf i =
        device.pucVideBuf i := Function.update_of_ne (by omega) _ _
    refine nothing (.mapping (device.pucVideBuf i) device.iVideoBufMaxLen)
      (List.mem_filterMap.mpr ⟨i, List.mem_range'_1.mpr ⟨Nat.zero_le i, ?_⟩, ?_⟩)
    · change i < 0 + count
      omega
    · rw [kept]
      exact if_neg occupied
  · rintro ⟨small, empty⟩
    refine ⟨fun impossible => (nomatch impossible), fun result same => ?_⟩
    cases same
    refine balanced_iff.mpr ⟨fun _ member => (nomatch member), fun item member => ?_⟩
    obtain ⟨cell, inRange, isItem⟩ := List.mem_filterMap.mp member
    have below := (List.mem_range'_1.mp inRange).2
    change cell < 0 + count at below
    have isNull : (VideoDevice.withOperations { device with iVideoBufCnt := count }).pucVideBuf
        cell = .null :=
      (Function.update_of_ne (by omega) _ _).trans (empty cell (by omega))
    rw [isNull] at isItem
    cases isItem

end SetUp

/-! ### Every camera -/

/-- Where the buffers of a camera are released as they were acquired. -/
def ReleasableBuffers (answers : Answers) (device : VideoDevice) (capabilities : Capabilities)
    (count : Nat) : Prop :=
  match setUpMethod capabilities with
  | some .streaming =>
      FirstBufferFails answers count ∨
        (BuffersSucceed answers count ∧ count ≤ nbBuffer ∧ OneLength answers count)
  | some .readWrite => answers.malloc = .null
  | none => count ≤ nbBuffer ∧ ∀ i < count, device.pucVideBuf i = .null

theorem setUp_iff (answers : Answers) (device : VideoDevice) (size : Nat × Nat)
    (capabilities : Capabilities) (count : Nat) (table : VideoOpr) :
    SetUpReleases
        (setUpBuffersLogged answers capabilities count (device.formatted answers size) table) ↔
      ReleasableBuffers answers device capabilities count := by
  unfold ReleasableBuffers setUpMethod
  by_cases streaming : capabilities.streaming = true
  · rw [streaming_iff streaming, if_pos streaming]
  · rw [if_neg streaming]
    by_cases readWrite : capabilities.readWrite = true
    · rw [readWrite_iff streaming readWrite, if_pos readWrite]
    · rw [neither_iff streaming readWrite, if_neg readWrite]
      rfl

theorem setUp_noDescriptor (answers : Answers) (capabilities : Capabilities) (count : Nat)
    (device : VideoDevice) (table : VideoOpr) :
    Resource.descriptor ∉
      (setUpBuffersLogged answers capabilities count device table).acquired := by
  by_cases streaming : capabilities.streaming = true
  · rw [streaming_setUp streaming]
    exact mapBuffersLogged_descriptor answers count 0 _
  · unfold setUpBuffersLogged
    rw [if_neg streaming]
    split
    · intro member
      change Resource.descriptor ∈ mallocLogged answers.malloc at member
      unfold mallocLogged at member
      split at member
      · cases member
      · cases List.mem_singleton.mp member
    · exact List.not_mem_nil

theorem buffers_released_iff (answers : Answers) (device : VideoDevice) (table : VideoOpr) :
    ReleasesBuffers answers device table ↔
      ∀ capabilities count, ReachesBuffers answers device capabilities count →
        ReleasableBuffers answers device capabilities count := by
  by_cases reaches : ∃ capabilities count, ReachesBuffers answers device capabilities count
  · obtain ⟨capabilities, count, reached⟩ := reaches
    obtain ⟨size, isSet⟩ := initOpenedLogged_reached reached table
    rw [releases_iff_setUp reached.opened isSet (setUp_noDescriptor _ _ _ _ _), setUp_iff]
    constructor
    · intro releasable capabilities' count' reached'
      have sameCap := reached.querycap.symm.trans reached'.querycap
      have sameCount := reached.reqbufs.symm.trans reached'.reqbufs
      cases sameCap
      cases sameCount
      exact releasable
    · exact fun all => all capabilities count reached
  · have stopped : ∀ capabilities count, ¬ReachesBuffers answers device capabilities count :=
      fun capabilities count reached => reaches ⟨capabilities, count, reached⟩
    refine ⟨fun _ capabilities count reached => absurd reached (stopped capabilities count),
      fun _ => ?_⟩
    by_cases opened : answers.opened = true
    · have isSet := initOpenedLogged_stopped opened stopped table
      exact (@releases_iff_setUp answers device table ⟨none, []⟩ opened isSet
        List.not_mem_nil).mpr ⟨fun _ => rfl, fun _ impossible => (nomatch impossible)⟩
    · have run : v4l2InitDeviceRun answers device table = ⟨none, []⟩ := by
        unfold v4l2InitDeviceRun
        rw [if_pos (by simpa using opened)]
      constructor
      · rw [run]
        exact fun _ => ⟨fun _ member => (nomatch member), fun _ member => (nomatch member)⟩
      · rw [run]
        exact fun _ impossible => (nomatch impossible)

/-- A camera whose second buffer cannot be queued: both are mapped and stay so. -/
theorem queueFailure_leaks :
    ¬ReleasesBuffers { camera true false with qbuf := fun i => i == 0 } blankDevice
      tV4l2VideoOpr := by
  intro releases
  have balanced := releases.onFailure (by decide)
  have once := balanced.released (.mapping (.mapped 0) 614400) (by decide)
  exact absurd once (by decide)

end BuildLinux.Concrete.V4l2Release
